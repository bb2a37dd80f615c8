import TableAccess.Proofs.Lexemes
import TableAccess.Sql.Delete
import TableAccess.Sql.Insert
import TableAccess.Sql.Select
import TableAccess.Sql.Update

/-!
# Statements as texts with places

Each kind of statement as a list of pieces. The four builders number their placeholders through a
list that is handed from clause to clause; `Statement.ofPieces` numbers the places of the finished
text. Both give the same statement, whatever was put into the builder.
-/
namespace TableAccess.Sql

namespace Expr

theorem allEmpty_eq (es : List Expr) : allEmpty es = es.all isEmpty := by
  induction es with
  | nil => rfl
  | cons e es ih => simp [allEmpty, ih]

theorem memberLexemes_eq_nil {es : List Expr} : memberLexemes es = [] ↔ allEmpty es := by
  simp [memberLexemes_eq, allEmpty_eq, List.filter_eq_nil_iff]

/-- A member of a group that is not empty has some text. -/
theorem spell_enclosed_ne_empty (d : Dialect) (n : Nat) (e : Expr) :
    Piece.spell d n (Lexeme.allPieces e.enclosed) ≠ "" := by
  by_cases hg : e.isGrouped
  · simp [spell_enclosed, hg, parenthesized, String.append_eq_empty_iff]
  · cases e with
    | all | any | template => simp [isGrouped] at hg
    | compare | nullCheck | inList | always | never =>
      simp [spell_enclosed, isGrouped, pieces, lexemes, Lexeme.pieces, Piece.spell,
        String.append_eq_empty_iff, apply_ite (· = "")]

/-- A conjunction has no text exactly if all its members are empty. -/
theorem spell_all_eq_empty {d : Dialect} {n : Nat} {es : List Expr} :
    Piece.spell d n (Expr.all es).pieces = "" ↔ allEmpty es := by
  rw [← memberLexemes_eq_nil]
  constructor
  · intro h
    cases hes : memberLexemes es with
    | nil => rfl
    | cons ts tss =>
      have hmem : ts ∈ memberLexemes es := by simp [hes]
      rw [memberLexemes_eq] at hmem
      obtain ⟨e, -, rfl⟩ := List.mem_map.mp hmem
      have hne := spell_enclosed_ne_empty d n e
      rw [pieces, lexemes, hes, Lexeme.allPieces_intercalate] at h
      cases tss with
      | nil => simp [hne] at h
      | cons us tss =>
        rw [List.map_cons, List.map_cons, List.intercalate_cons_cons, List.append_assoc,
          Piece.spell_append, String.append_eq_empty_iff] at h
        exact absurd h.1 hne
  · intro h
    simp [pieces, lexemes, h, Piece.spell]

end Expr

namespace ExprGroup

/-- A clause behind its keyword, nothing if the group has no text. -/
def clausePieces (keyword : String) (g : ExprGroup) : List Piece :=
  if Expr.allEmpty g.members then [] else .text keyword :: (Expr.all g.members).pieces

theorem renderClause_eq (d : Dialect) (keyword : String) (g : ExprGroup) (ps : ParamList) :
    g.renderClause d keyword ps =
      (Piece.spell d ps.size (g.clausePieces keyword),
        ps.append (Piece.values (g.clausePieces keyword))) := by
  by_cases he : Expr.allEmpty g.members
  · have hspell := Expr.spell_all_eq_empty (d := d) (n := ps.size).mpr he
    have hvalues : Piece.values (Expr.all g.members).pieces = [] := by
      simp [Expr.pieces, Expr.lexemes, Expr.memberLexemes_eq_nil.mpr he, Piece.values]
    simp [renderClause, render, Expr.render_eq, hspell, hvalues, clausePieces, he, Piece.spell,
      Piece.values, ParamList.append_nil]
  · have hspell : Piece.spell d ps.size (Expr.all g.members).pieces ≠ "" := by
      simpa [Expr.spell_all_eq_empty] using he
    have hmembers : g.isEmpty = false := by
      cases hg : g.members with
      | nil => simp [hg, Expr.allEmpty] at he
      | cons e es => simp [isEmpty, hg]
    simp [renderClause, hmembers, render, Expr.render_eq, hspell, clausePieces, he, Piece.spell,
      Piece.values]

end ExprGroup

namespace Select

/-- FROM and WHERE. -/
def rowsPieces (s : Select) : List Piece :=
  .text (" FROM " ++ s.source) :: s.filter.clausePieces " WHERE "

/-- The selection. -/
def pieces (s : Select) : List Piece :=
  .text ("SELECT " ++ s.projection) :: s.rowsPieces
    ++ .text (termClause " GROUP BY " s.groups) :: s.groupFilter.clausePieces " HAVING "
    ++ [.text (termClause " ORDER BY " s.orders
      ++ s.dialect.pagingTail s.limit? s.offset? (!s.orders.isEmpty))]

/-- The count, under a name. -/
def countPieces (s : Select) (label : String) : List Piece :=
  .text ("SELECT COUNT(*) AS " ++ label) :: s.rowsPieces

theorem rowsClause_eq (s : Select) :
    s.rowsClause =
      (Piece.spell s.dialect 0 s.rowsPieces,
        ParamList.empty.append (Piece.values s.rowsPieces)) := by
  simp only [rowsClause, rowsPieces, ExprGroup.renderClause_eq, Piece.spell, Piece.values,
    ParamList.size_empty]

theorem build_eq (s : Select) : s.build = Statement.ofPieces s.dialect s.pieces := by
  simp only [build, rowsClause_eq, ExprGroup.renderClause_eq, ParamList.size_empty_append,
    pieces, Statement.ofPieces, Statement.mk.injEq]
  constructor
  · simp only [List.cons_append, Piece.spell, Piece.spell_append, Nat.zero_add,
      String.append_assoc, String.append_empty]
  · simp [Piece.values, Piece.values_append, ParamList.append_append]

theorem count_eq (s : Select) (label : String) :
    s.count label = Statement.ofPieces s.dialect (s.countPieces label) := by
  unfold Select.count
  simp only [rowsClause_eq, ParamList.values_empty_append, countPieces, Statement.ofPieces,
    Piece.spell, Piece.values]

end Select

namespace Insert

/-- The insertion, with a place for each value. -/
def pieces (i : Insert) : List Piece :=
  .text ("INSERT INTO " ++ i.table ++ " (" ++ ", ".intercalate i.columns ++ ") VALUES (")
    :: [.text ", "].intercalate (i.entries.map fun e => [.bound e.2]) ++ [.text ")"]

theorem values_places (entries : List (String × Value)) :
    (entries.map fun e => [Piece.bound e.2]).flatMap Piece.values = entries.map (·.2) := by
  induction entries with
  | nil => rfl
  | cons e entries ih => simp [List.flatMap_cons, Piece.values, ih]

theorem build_eq (i : Insert) (h : i.entries ≠ []) :
    i.build = .ok (Statement.ofPieces i.dialect i.pieces) := by
  simp only [build, List.isEmpty_eq_false_iff.mpr h, Bool.false_eq_true, if_false,
    ParamList.bindAll_eq, List.map_map, Function.comp_def, ParamList.size_empty,
    ParamList.values_empty_append, Piece.intercalate_spellEach, pieces, Statement.ofPieces,
    Except.ok.injEq, Statement.mk.injEq]
  constructor
  · simp only [List.cons_append, Piece.spell, Piece.spell_append, String.append_assoc,
      String.append_empty]
  · simp [Piece.values, Piece.values_append, Piece.values_intercalate, values_places]

end Insert

namespace Update

/-- What is set, each value behind its column. -/
def setPieces (u : Update) : List Piece :=
  .text ("UPDATE " ++ u.table ++ " SET ")
    :: [.text ", "].intercalate (u.entries.map fun e => [.text (e.1 ++ " = "), .bound e.2])

/-- The update. -/
def pieces (u : Update) : List Piece := u.setPieces ++ u.filter.clausePieces " WHERE "

theorem zipWith_spellEach (d : Dialect) (n : Nat) (entries : List (String × Value)) :
    List.zipWith (fun e p => e.1 ++ " = " ++ p) entries
        (Piece.spellEach d n (entries.map fun e => [.bound e.2])) =
      Piece.spellEach d n (entries.map fun e => [.text (e.1 ++ " = "), .bound e.2]) := by
  induction entries generalizing n with
  | nil => rfl
  | cons e entries ih => simp [Piece.spellEach, Piece.spell, Piece.values, ih]

theorem values_assignments (entries : List (String × Value)) :
    (entries.map fun e => [Piece.text (e.1 ++ " = "), .bound e.2]).flatMap Piece.values =
      entries.map (·.2) := by
  induction entries with
  | nil => rfl
  | cons e entries ih => simp [List.flatMap_cons, Piece.values, ih]

theorem values_setPieces (u : Update) : Piece.values u.setPieces = u.entries.map (·.2) := by
  simp [setPieces, Piece.values, Piece.values_intercalate, values_assignments]

theorem build_eq (u : Update) (h : u.entries ≠ []) :
    u.build = .ok (Statement.ofPieces u.dialect u.pieces) := by
  simp only [build, List.isEmpty_eq_false_iff.mpr h, Bool.false_eq_true, if_false,
    ParamList.bindAll_eq, List.map_map, Function.comp_def, ParamList.size_empty,
    ParamList.size_empty_append, zipWith_spellEach, Piece.intercalate_spellEach,
    ExprGroup.renderClause_eq, ParamList.append_append, ParamList.values_empty_append, pieces,
    Statement.ofPieces, Except.ok.injEq, Statement.mk.injEq, Piece.values_append,
    values_setPieces, Piece.spell_append, Nat.zero_add, and_true]
  simp only [setPieces, Piece.spell, String.append_assoc]

end Update

namespace Delete

/-- The deletion. -/
def pieces (s : Delete) : List Piece :=
  .text ("DELETE FROM " ++ s.table) :: s.filter.clausePieces " WHERE "

theorem build_eq (s : Delete) : s.build = Statement.ofPieces s.dialect s.pieces := by
  simp only [build, ExprGroup.renderClause_eq, ParamList.size_empty,
    ParamList.values_empty_append, pieces, Statement.ofPieces, Piece.spell, Piece.values]

end Delete

end TableAccess.Sql
