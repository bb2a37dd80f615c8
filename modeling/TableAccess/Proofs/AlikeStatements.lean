import TableAccess.Proofs.BoundScalars
import TableAccess.Proofs.FilteredWrites

/-!
# Statements with one text

Two statements that differ in bound values only, and how they come from arguments that differ in
values only. `R v w` says of two values that they may stand at the same place. Every statement of a
writer has one text for alike rows and criteria, or both are refused with one error.
-/
namespace TableAccess

namespace Sql
variable {R : Value → Value → Prop}

/-- The same text, or the places of two related values. -/
inductive Piece.Alike (R : Value → Value → Prop) : Piece → Piece → Prop
  | text (s : String) : Alike R (.text s) (.text s)
  | bound {v w : Value} (h : R v w) : Alike R (.bound v) (.bound w)

/-- One text with related values. -/
structure Statement.SentAlike (R : Value → Value → Prop) (st st' : Statement) : Prop where
  sql_eq : st.sql = st'.sql
  params : List.Forall₂ R st.params st'.params

namespace Piece
variable {ps qs : List Piece}

theorem outline_eq_of_alike (h : List.Forall₂ (Alike R) ps qs) : outline ps = outline qs := by
  induction h with
  | nil => rfl
  | cons hpq _ ih =>
    have hrest : ∀ p q : Piece, p.text? = q.text? → outline (p :: _) = outline (q :: _) :=
      fun p q hpq => congrArg₂ List.cons hpq ih
    cases hpq with
    | text s => exact hrest _ _ rfl
    | bound => exact hrest _ _ rfl

theorem values_alike (h : List.Forall₂ (Alike R) ps qs) :
    List.Forall₂ R (values ps) (values qs) := by
  induction h with
  | nil => exact .nil
  | cons hpq _ ih =>
    cases hpq with
    | text s => exact ih
    | bound hvw => exact .cons hvw ih

theorem alike_of_values_eq_nil (h : values ps = []) : List.Forall₂ (Alike R) ps ps := by
  induction ps with
  | nil => exact .nil
  | cons p ps ih =>
    cases p with
    | text s => exact .cons (.text s) (ih h)
    | bound v => cases h

theorem alike_intercalate {pss qss : List (List Piece)}
    (h : List.Forall₂ (List.Forall₂ (Alike R)) pss qss) (sep : String) :
    List.Forall₂ (Alike R) ([.text sep].intercalate pss) ([.text sep].intercalate qss) := by
  induction h with
  | nil => exact .nil
  | cons hps hrest ih =>
    cases hrest with
    | nil => simpa using hps
    | cons =>
      rw [List.intercalate_cons_cons, List.intercalate_cons_cons]
      exact List.rel_append (List.rel_append hps (.cons (.text sep) .nil)) ih

end Piece

theorem Statement.sentAlike_ofPieces {ps qs : List Piece} (h : List.Forall₂ (Piece.Alike R) ps qs)
    (d : Dialect) : (ofPieces d ps).SentAlike R (ofPieces d qs) where
  sql_eq := Piece.spell_congr (Piece.outline_eq_of_alike h) d 0
  params := Piece.values_alike h

end Sql

/-- Two results that fail alike, or that are related. -/
inductive EndAlike {α : Type} (Q : α → α → Prop) : Except Error α → Except Error α → Prop
  | error (e : Error) : EndAlike Q (.error e) (.error e)
  | ok {x y : α} (h : Q x y) : EndAlike Q (.ok x) (.ok y)

namespace EndAlike
variable {α β : Type} {Q : α → α → Prop} {S : β → β → Prop} {x y : Except Error α}

theorem bind {f g : α → Except Error β} (h : EndAlike Q x y)
    (hf : ∀ a b, Q a b → EndAlike S (f a) (g b)) : EndAlike S (x >>= f) (y >>= g) := by
  cases h with
  | error e => exact .error e
  | ok hab => exact hf _ _ hab

theorem map {f g : α → β} (h : EndAlike Q x y) (hf : ∀ a b, Q a b → S (f a) (g b)) :
    EndAlike S (x.map f) (y.map g) := by
  cases h with
  | error e => exact .error e
  | ok hab => exact .ok (hf _ _ hab)

end EndAlike

/-- Related single values, or one list. -/
inductive Operand.Alike (R : Value → Value → Prop) : Operand → Operand → Prop
  | scalar {v w : Value} (h : R v w) : Alike R (.scalar v) (.scalar w)
  | list (vs : List Value) : Alike R (.list vs) (.list vs)

namespace Criteria
variable {R : Value → Value → Prop}

/-- One column with two operands. -/
def EntryAlike (R : Value → Value → Prop) (e e' : String × Operand) : Prop :=
  e.1 = e'.1 ∧ e.2.Alike R e'.2

/-- Two atoms of criteria that are written alike. -/
structure WrittenAlike (R : Value → Value → Prop) (x y : Sql.Expr) : Prop where
  left : x.isGrouped = false
  right : y.isGrouped = false
  pieces : List.Forall₂ (Sql.Piece.Alike R) x.pieces y.pieces

theorem lower_alike (quote : String → String) {e e' : String × Operand} (h : EntryAlike R e e') :
    EndAlike (WrittenAlike R) (Condition.lower quote .rowFilter (.compare e.1 none e.2))
      (Condition.lower quote .rowFilter (.compare e'.1 none e'.2)) := by
  obtain ⟨column, operand⟩ := e
  obtain ⟨column', operand'⟩ := e'
  obtain ⟨rfl, hoperand⟩ := h
  cases hoperand with
  | @scalar v w hvw =>
    simp only [Condition.lower, Condition.lowerCompare]
    split_ifs
    · exact .error _
    · exact .ok ⟨rfl, rfl, .cons (.text _) (.cons (.bound hvw) .nil)⟩
  | list vs =>
    -- A list is the same in both, and nothing of it is bound.
    cases hlowered : Condition.lower quote .rowFilter (.compare column none (.list vs)) with
    | error e => exact .error e
    | ok x =>
      have hgrouped := Condition.isGrouped_compare hlowered
      have hvalues : Sql.Piece.values x.pieces = [] := Condition.values_compare hlowered
      exact .ok ⟨hgrouped, hgrouped, Sql.Piece.alike_of_values_eq_nil hvalues⟩

theorem lowerAll_alike (quote : String → String) {es es' : List (String × Operand)}
    (h : List.Forall₂ (EntryAlike R) es es') :
    EndAlike (List.Forall₂ (WrittenAlike R))
      (Condition.lowerAll quote .rowFilter (es.map fun e => .compare e.1 none e.2))
      (Condition.lowerAll quote .rowFilter (es'.map fun e => .compare e.1 none e.2)) := by
  induction h with
  | nil => exact .ok .nil
  | cons he _ ih =>
    refine (lower_alike quote he).bind fun x y hxy => ?_
    exact ih.bind fun xs ys hxs => .ok (.cons hxy hxs)

end Criteria

namespace Row
variable {P : String → Value → Value → Prop} {row row' : Row}

/-- The same columns in the same order, with related values. -/
def Alike (P : String → Value → Value → Prop) (row row' : Row) : Prop :=
  List.Forall₂ (fun e e' => e.1 = e'.1 ∧ P e.1 e.2 e'.2) row.entries row'.entries

theorem Alike.entries_eq_nil (h : row.Alike P row') : row.entries = [] ↔ row'.entries = [] := by
  rw [← List.length_eq_zero_iff, ← List.length_eq_zero_iff, h.length_eq]

theorem Alike.isEmpty_eq (h : row.Alike P row') : row.isEmpty = row'.isEmpty := by
  rw [isEmpty, isEmpty, Bool.eq_iff_iff, List.isEmpty_iff, List.isEmpty_iff, h.entries_eq_nil]

theorem Alike.columns_eq (h : row.Alike P row') : row.columns = row'.columns := by
  have hcolumns : List.Forall₂ (· = ·) row.columns row'.columns :=
    List.forall₂_map_left_iff.mpr (List.forall₂_map_right_iff.mpr (h.imp fun _ _ he => he.1))
  exact List.forall₂_eq_eq_eq ▸ hcolumns

theorem Alike.set (h : row.Alike P row') {column : String} {v w : Value} (hvw : P column v w) :
    (row.set column v).Alike P (row'.set column w) := by
  have hentries : ∀ es es' : List (String × Value),
      List.Forall₂ (fun e e' => e.1 = e'.1 ∧ P e.1 e.2 e'.2) es es' →
        List.Forall₂ (fun e e' => e.1 = e'.1 ∧ P e.1 e.2 e'.2) (setEntry column v es)
          (setEntry column w es') := by
    intro es es' hes
    induction hes with
    | nil => exact .cons ⟨rfl, hvw⟩ .nil
    | @cons e e' es es' he hes ih =>
      obtain ⟨k, a⟩ := e
      obtain ⟨k', a'⟩ := e'
      obtain ⟨rfl, ha⟩ := he
      by_cases hk : k = column
      · subst hk
        simp only [setEntry, if_true]
        exact .cons ⟨rfl, hvw⟩ hes
      · simp only [setEntry, hk, if_false]
        exact .cons ⟨rfl, ha⟩ ih
  exact hentries _ _ h

theorem Alike.filter (h : row.Alike P row') {keep : String → Value → Bool}
    (hkeep : ∀ column v w, P column v w → keep column v = keep column w) :
    (row.filter keep).Alike P (row'.filter keep) := by
  refine List.rel_filter ?_ h
  rintro ⟨column, v⟩ ⟨column', w⟩ ⟨rfl, hvw⟩
  exact Bool.eq_iff_iff.mp (hkeep column v w hvw)

end Row

namespace Writer
variable {σ : Type} (w : Writer σ) {R : Value → Value → Prop}
  {P : String → Value → Value → Prop}

theorem wherePieces_all {xs : List Sql.Expr} (h : ∀ x ∈ xs, x.isGrouped = false) :
    wherePieces (.all xs) =
      if xs.isEmpty then []
      else .text " WHERE " :: [.text " AND "].intercalate (xs.map Sql.Expr.pieces) := by
  have hmembers : (Sql.ExprGroup.empty.and (.all xs)).members = xs := by
    simp [Sql.ExprGroup.empty, Sql.ExprGroup.and, Sql.Expr.conjuncts,
      Sql.Expr.conjunctsOf_of_isGrouped h]
  rw [wherePieces, Sql.ExprGroup.clausePieces, hmembers, Sql.Expr.pieces_all_of_isGrouped h]
  cases xs with
  | nil => rfl
  | cons x xs =>
    have hempty := Condition.isEmpty_of_isGrouped (h x List.mem_cons_self)
    simp [Sql.Expr.allEmpty, hempty]

theorem filterExpr_alike {criteria criteria' : Criteria}
    (h : List.Forall₂ (Criteria.EntryAlike R) criteria.entries criteria'.entries) :
    EndAlike (fun f f' => List.Forall₂ (Sql.Piece.Alike R) (wherePieces f) (wherePieces f'))
      (w.filterExpr criteria) (w.filterExpr criteria') := by
  refine (Criteria.lowerAll_alike w.gateway.quote h).map fun xs ys hxs => ?_
  have hleft : ∀ x ∈ xs, x.isGrouped = false := by
    intro x hx
    obtain ⟨y, -, hxy⟩ := exists_mem_of_forall₂ hxs.flip hx
    exact hxy.left
  have hright : ∀ y ∈ ys, y.isGrouped = false := by
    intro y hy
    obtain ⟨x, -, hxy⟩ := exists_mem_of_forall₂ hxs hy
    exact hxy.right
  rw [wherePieces_all hleft, wherePieces_all hright]
  cases hxs with
  | nil => exact .nil
  | cons hx hxs =>
    refine .cons (.text _) (Sql.Piece.alike_intercalate (.cons hx.pieces ?_) _)
    exact List.rel_map (fun _ _ h => h.pieces) hxs

theorem countStatement_alike {f f' : Sql.Expr}
    (h : List.Forall₂ (Sql.Piece.Alike R) (wherePieces f) (wherePieces f')) :
    (w.countStatement f).SentAlike R (w.countStatement f') := by
  rw [countStatement_eq, countStatement_eq]
  exact Sql.Statement.sentAlike_ofPieces (.cons (.text _) (.cons (.text _) h)) _

theorem deleteStatement_alike {f f' : Sql.Expr}
    (h : List.Forall₂ (Sql.Piece.Alike R) (wherePieces f) (wherePieces f')) :
    (w.deleteStatement f).SentAlike R (w.deleteStatement f') := by
  rw [deleteStatement_eq, deleteStatement_eq]
  exact Sql.Statement.sentAlike_ofPieces (.cons (.text _) h) _

variable {row row' : Row} (hP : ∀ column v v', P column v v' → R v v') (h : row.Alike P row')
include hP h

theorem insertStatement_alike :
    EndAlike (Sql.Statement.SentAlike R) (w.insertStatement row) (w.insertStatement row') := by
  by_cases hne : row.entries = []
  · rw [w.insertStatement_eq_error hne, w.insertStatement_eq_error (h.entries_eq_nil.mp hne)]
    exact .error _
  · have hne' : row'.entries ≠ [] := mt h.entries_eq_nil.mpr hne
    rw [w.insertStatement_eq_ok hne, w.insertStatement_eq_ok hne', h.columns_eq]
    refine .ok (Sql.Statement.sentAlike_ofPieces (.cons (.text _) ?_) _)
    refine List.rel_append (Sql.Piece.alike_intercalate ?_ _) (.cons (.text _) .nil)
    refine List.rel_map ?_ h
    rintro e e' ⟨-, hvalue⟩
    exact .cons (.bound (hP _ _ _ hvalue)) .nil

theorem updateStatement_alike {f f' : Sql.Expr}
    (hf : List.Forall₂ (Sql.Piece.Alike R) (wherePieces f) (wherePieces f')) :
    EndAlike (Sql.Statement.SentAlike R) (w.updateStatement row f) (w.updateStatement row' f') := by
  by_cases hne : row.entries = []
  · rw [w.updateStatement_eq_error hne, w.updateStatement_eq_error (h.entries_eq_nil.mp hne)]
    exact .error _
  · have hne' : row'.entries ≠ [] := mt h.entries_eq_nil.mpr hne
    rw [w.updateStatement_eq_ok hne, w.updateStatement_eq_ok hne']
    refine .ok (Sql.Statement.sentAlike_ofPieces (.cons (.text _) ?_) _)
    refine List.rel_append (Sql.Piece.alike_intercalate ?_ _) hf
    refine List.rel_map ?_ h
    rintro ⟨column, v⟩ ⟨column', v'⟩ ⟨rfl, hvalue⟩
    exact .cons (.text _) (.cons (.bound (hP _ _ _ hvalue)) .nil)

end Writer

end TableAccess
