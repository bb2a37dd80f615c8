import TableAccess.Proofs.Builders
import TableAccess.Proofs.Meaning

/-!
# Clauses from accepted filters

What a clause says when its group was filled with accepted filters, one `andWhere` after another:
the words of the joined filter with its nested conjunctions taken apart. Its leaves are those of
the filters in order, and each binds the values that `Condition.bound` names.
-/
namespace TableAccess

namespace Sql.Expr

/-- Ungrouped expressions are members of a conjunction as they stand. -/
theorem conjunctsOf_of_isGrouped {xs : List Expr} (h : ∀ x ∈ xs, x.isGrouped = false) :
    conjunctsOf xs = xs := by
  induction xs with
  | nil => rfl
  | cons x xs ih =>
    have hx := h x (by simp)
    have hempty := Condition.isEmpty_of_isGrouped hx
    have hconjuncts : conjuncts x = [x] := by
      cases x with
      | all => simp [isGrouped] at hx
      | _ => simp [conjuncts, hempty]
    rw [conjunctsOf, hconjuncts, ih fun y hy => h y (by simp [hy])]
    rfl

theorem pieces_all_of_isGrouped {xs : List Expr} (h : ∀ x ∈ xs, x.isGrouped = false) :
    (all xs).pieces = [.text " AND "].intercalate (xs.map pieces) := by
  have hwords : (memberLexemes xs).map Lexeme.allPieces = xs.map pieces := by
    induction xs with
    | nil => rfl
    | cons x xs ih =>
      have hx := h x (by simp)
      have hempty := Condition.isEmpty_of_isGrouped hx
      simp [memberLexemes, hempty, enclose, hx, ih fun y hy => h y (by simp [hy]), pieces]
  rw [pieces, lexemes, Lexeme.allPieces_intercalate, hwords]
  rfl

theorem pieces_all_singleton {x : Expr} (h : x.isGrouped = false) :
    (all [x]).pieces = x.pieces := by
  have hx : ∀ y ∈ [x], y.isGrouped = false := by simpa using h
  rw [pieces_all_of_isGrouped hx, List.map_singleton, List.intercalate_singleton]

theorem spell_inLiterals {column : String} {literals : List String} {o : Operator}
    (ho : o.isMembership) (hne : literals ≠ []) (d : Dialect) (n : Nat) :
    Piece.spell d n (inLiterals column literals (o == .notIn)).pieces =
      column ++ " " ++ o.sql ++ " (" ++ ", ".intercalate literals ++ ")" := by
  obtain ⟨l, ls, rfl⟩ := List.exists_cons_of_ne_nil hne
  cases o with
  | isIn | notIn =>
    simp [inLiterals, pieces, lexemes, Lexeme.pieces, Piece.spell, Operator.sql,
      String.append_assoc]
  | _ => simp [Operator.isMembership] at ho

end Sql.Expr

namespace Condition
variable {quote : String → String} {c : Clause}

theorem splicedOf_append (xs ys : List Condition) :
    splicedOf (xs ++ ys) = splicedOf xs ++ splicedOf ys := by
  induction xs with
  | nil => rfl
  | cons x xs ih => simp [splicedOf, ih, List.append_assoc]

theorem LowersTo.spliced_ne_nil {x : Condition} {e : Sql.Expr} (h : LowersTo quote c x e) :
    x.spliced ≠ [] := by
  induction x using memberInduction generalizing e with
  | compare | raw | any => simp [Condition.spliced]
  | all xs ih =>
    obtain ⟨hne, es, hes, rfl⟩ := lowersTo_all.mp h
    cases hes with
    | nil => exact absurd rfl hne
    | cons hx _ => simp [Condition.spliced, Condition.splicedOf, ih _ (by simp) hx]

theorem splicedOf_eq_nil {xs : List Condition} {es : List Sql.Expr}
    (h : List.Forall₂ (LowersTo quote c) xs es) : splicedOf xs = [] ↔ xs = [] := by
  cases h with
  | nil => simp [splicedOf]
  | cons hx _ => simp [splicedOf, hx.spliced_ne_nil]

/-- The operator that a comparison is made with, if the caller's is known. -/
def operator? (op : Option String) (operand : Operand) : Option Operator :=
  match op, operand with
  | none, .scalar _ => some .eq
  | none, .list _ => some .isIn
  | some s, _ => Operator.parse? s

/-- The values that a leaf binds: the single value of a comparison, but none for membership or a
check for null, and the parameters of a raw text. -/
def bound : Condition → List Value
  | .compare _ op (.scalar v) =>
    match operator? op (.scalar v) with
    | some op => if op.isMembership || op == .is || op == .isNot then [] else [v]
    | none => []
  | .raw _ params => params
  | _ => []

theorem operator?_of_resolveOperator {column : String} {op : Option String} {operand : Operand}
    {o : Operator} (h : resolveOperator c column operand op = .ok o) :
    operator? op operand = some o := by
  cases op with
  | none => cases operand <;> simpa [resolveOperator, operator?] using h
  | some s =>
    cases hs : Operator.parse? s with
    | none => simp [resolveOperator, hs] at h
    | some o' => simpa [resolveOperator, operator?, hs] using h

theorem values_inLiterals (column : String) (literals : List String) (negated : Bool) :
    Sql.Piece.values (Sql.Expr.inLiterals column literals negated).pieces = [] := by
  cases literals <;> cases negated <;> rfl

theorem values_compare {column : String} {op : Option String} {operand : Operand}
    {e : Sql.Expr} (h : LowersTo quote c (.compare column op operand) e) :
    Sql.Piece.values e.pieces = bound (.compare column op operand) := by
  obtain ⟨-, o, ho, he⟩ := lowersTo_compare.mp h
  have hop := operator?_of_resolveOperator ho
  cases lowerOperand_eq_ok.mp he with
  | members => exact values_inLiterals _ _ _
  | single hmember =>
    rw [values_inLiterals]
    simp [bound, hop, hmember]
  | null hmember hnull =>
    simp only [Bool.or_eq_true] at hnull
    rcases hnull with hnull | hnull <;>
      simp [bound, hop, hnull, Sql.Expr.pieces, Sql.Expr.lexemes, Sql.Lexeme.pieces,
        Sql.Piece.values]
  | bound v hmember hnull =>
    simp only [Bool.or_eq_false_iff] at hnull
    simp [bound, hop, hmember, hnull, Sql.Expr.pieces, Sql.Expr.lexemes, Sql.Lexeme.pieces,
      Sql.Piece.values]

/-- A leaf binds its own values. -/
theorem WrittenAs.values {x : Condition} {ps : List Sql.Piece} (h : WrittenAs quote c x ps) :
    Sql.Piece.values ps = x.bound := by
  obtain ⟨hleaf, e, he, rfl⟩ := h
  cases x with
  | compare column op operand => exact values_compare he
  | raw sql params =>
    obtain ⟨-, hcount, rfl⟩ := lowersTo_raw.mp he
    simp [Sql.Expr.pieces, Sql.Expr.lexemes, Sql.Lexeme.pieces,
      Sql.Expr.values_templatePieces hcount, bound]
  | any | all => simp [isLeaf] at hleaf

theorem values_of_writtenAs {xs : List Condition} {pss : List (List Sql.Piece)}
    (h : List.Forall₂ (WrittenAs quote c) xs pss) :
    pss.flatMap Sql.Piece.values = xs.flatMap bound := by
  induction h with
  | nil => rfl
  | cons hx _ ih => simp [List.flatMap_cons, hx.values, ih]

end Condition

namespace Filter

/-- The filter of all conditions of several filters. -/
def join (fs : List Filter) : Filter := ⟨fs.flatMap conditions⟩

/-- The values that the leaves of a filter bind, from left to right. -/
def bound (f : Filter) : List Value := f.leaves.flatMap Condition.bound

/-- Every filter is accepted, with the expression that stands in its place. -/
def Accepted (quote : String → String) (c : Clause) (fs : List Filter) (es : List Sql.Expr) :
    Prop :=
  List.Forall₂ (fun f e => f.toExpr quote c = .ok e) fs es

variable {quote : String → String} {c : Clause}

theorem bound_join (fs : List Filter) : (join fs).bound = fs.flatMap bound := by
  induction fs with
  | nil => rfl
  | cons f fs ih =>
    simp only [bound, leaves, join, List.flatMap_cons, Condition.leavesOf_append,
      List.flatMap_append] at ih ⊢
    rw [ih]

/-- Filters added one after another are accepted as their joined filter. -/
theorem Accepted.lowersTo {fs : List Filter} {es : List Sql.Expr} (h : Accepted quote c fs es) :
    List.Forall₂ (Condition.LowersTo quote c) (join fs).spliced.conditions
      (es.flatMap Sql.Expr.conjuncts) := by
  induction h with
  | nil => exact .nil
  | @cons f e fs es hf _ ih =>
    obtain ⟨members, hmembers, rfl⟩ := toExpr_eq_ok.mp hf
    simp only [spliced, join, List.flatMap_cons, Condition.splicedOf_append]
    exact List.rel_append (Condition.LowersTo.splicedOf hmembers) ih

/-- A group holds the conditions of an accepted filter, nested conjunctions taken apart. -/
structure Fills (quote : String → String) (c : Clause) (f : Filter) (g : Sql.ExprGroup) :
    Prop where
  lowersTo : List.Forall₂ (Condition.LowersTo quote c) f.spliced.conditions g.members
  eq_nil_iff : f.spliced.conditions = [] ↔ f.conditions = []

/-- Filters added one after another fill a group with their joined filter. -/
theorem Accepted.fills {fs : List Filter} {es : List Sql.Expr} {g : Sql.ExprGroup}
    (h : Accepted quote c fs es) (hg : g.members = es.flatMap Sql.Expr.conjuncts) :
    Fills quote c (join fs) g := by
  have hjoin : ∃ members, List.Forall₂ (Condition.LowersTo quote c) (join fs).conditions
      members := by
    clear hg
    induction h with
    | nil => exact ⟨[], .nil⟩
    | @cons f e fs es hf _ ih =>
      obtain ⟨members, hmembers, -⟩ := toExpr_eq_ok.mp hf
      obtain ⟨rest, hrest⟩ := ih
      exact ⟨members ++ rest, List.rel_append hmembers hrest⟩
  obtain ⟨members, hmembers⟩ := hjoin
  exact ⟨hg ▸ h.lowersTo, Condition.splicedOf_eq_nil hmembers⟩

namespace Fills
variable {f : Filter} {g : Sql.ExprGroup}

theorem members_eq_nil (h : Fills quote c f g) : g.members = [] ↔ f.conditions = [] := by
  rw [← h.eq_nil_iff]
  cases hf : f.spliced.conditions with
  | nil => simpa [hf] using h.lowersTo
  | cons x xs =>
    have hxs := h.lowersTo
    rw [hf] at hxs
    obtain ⟨e, es, -, -, hg⟩ := List.forall₂_cons_left_iff.mp hxs
    simp [hg]

theorem allEmpty (h : Fills quote c f g) : Sql.Expr.allEmpty g.members ↔ f.conditions = [] := by
  rw [← h.members_eq_nil, ← Sql.Expr.memberLexemes_eq_nil,
    Condition.memberLexemes_of_lowersTo h.lowersTo, List.map_eq_nil_iff]

/-- An empty filter makes no clause. -/
theorem clausePieces_nil (h : Fills quote c f g) (hf : f.conditions = []) (keyword : String) :
    g.clausePieces keyword = [] := by
  simp [Sql.ExprGroup.clausePieces, h.allEmpty, hf]

theorem clausePieces_cons (h : Fills quote c f g) (hf : f.conditions ≠ []) (keyword : String) :
    g.clausePieces keyword = .text keyword :: (Sql.Expr.all g.members).pieces := by
  simp [Sql.ExprGroup.clausePieces, h.allEmpty, hf]

/-- The leaves of a filter are the atoms and raw texts of its clause. -/
theorem writtenAs (h : Fills quote c f g) :
    List.Forall₂ (Condition.WrittenAs quote c) f.leaves
      (Sql.Lexeme.contents (Sql.Expr.all g.members).lexemes) := by
  simpa using contents_lexemes h.lowersTo

theorem values_pieces (h : Fills quote c f g) :
    Sql.Piece.values (Sql.Expr.all g.members).pieces = f.bound := by
  rw [Sql.Expr.pieces, Sql.Lexeme.values_allPieces, Condition.values_of_writtenAs h.writtenAs]
  rfl

/-- A clause binds the values of its leaves from left to right. -/
theorem values_clausePieces (h : Fills quote c f g) (keyword : String) :
    Sql.Piece.values (g.clausePieces keyword) = f.bound := by
  by_cases hf : f.conditions = []
  · simp [h.clausePieces_nil hf, Sql.Piece.values, bound, leaves, hf, Condition.leavesOf]
  · simp [h.clausePieces_cons hf, Sql.Piece.values, h.values_pieces]

end Fills

theorem Accepted.values_clausePieces {fs : List Filter} {es : List Sql.Expr} {g : Sql.ExprGroup}
    (h : Accepted quote c fs es) (hg : g.members = es.flatMap Sql.Expr.conjuncts)
    (keyword : String) : Sql.Piece.values (g.clausePieces keyword) = fs.flatMap bound := by
  rw [(h.fills hg).values_clausePieces, bound_join]

variable {f : Filter}

theorem compileInto_eq {e : Sql.Expr} (h : f.toExpr quote c = .ok e) (d : Dialect)
    (ps : Sql.ParamList) :
    f.compileInto ⟨d, quote⟩ c ps =
      .ok (Sql.Piece.spell d ps.size e.pieces, ps.append (Sql.Piece.values e.pieces)) := by
  simp only [compileInto, h, Except.map, Sql.Expr.render_eq]

theorem compile_eq {e : Sql.Expr} (h : f.toExpr quote c = .ok e) (d : Dialect) :
    f.compile ⟨d, quote⟩ c =
      .ok ((Sql.Statement.ofPieces d e.pieces).sql,
        (Sql.Statement.ofPieces d e.pieces).params) := by
  rw [compile, compileInto_eq h]
  rfl

theorem compile_eq_ok {t : Target} {sql : String} {vs : List Value} :
    f.compile t c = .ok (sql, vs) ↔
      ∃ e, f.toExpr t.quote c = .ok e ∧ sql = Sql.Piece.spell t.dialect 0 e.pieces ∧
        vs = Sql.Piece.values e.pieces := by
  simp only [compile, compileInto, map_eq_ok, Sql.Expr.render_eq]
  constructor
  · rintro ⟨-, ⟨e, he, rfl⟩, h⟩
    cases h
    exact ⟨e, he, rfl, rfl⟩
  · rintro ⟨e, he, rfl, rfl⟩
    exact ⟨_, ⟨e, he, rfl⟩, rfl⟩

theorem values_of_toExpr {e : Sql.Expr} (h : f.toExpr quote c = .ok e) :
    Sql.Piece.values e.pieces = f.bound := by
  obtain ⟨es, hes, rfl⟩ := toExpr_eq_ok.mp h
  rw [Sql.Expr.pieces, Sql.Lexeme.values_allPieces,
    Condition.values_of_writtenAs (contents_lexemes hes)]
  rfl

/-- A filter with an OR inside an AND inside an OR, a raw text and a group that is spliced. -/
def nested : Filter :=
  ⟨[.eq "active" (.bool true),
    .any [.cmp "age" ">=" (.int 18), .all [.isNull "owner", .raw "len(name) = ?" [.int 3]]],
    .all [.isIn "kind" [.int 1, .null], .any [.cmp "kind" "<" (.int 9)]]]⟩

def nestedExpr : Sql.Expr :=
  .all [.compare "active" "=" (.bool true),
    .any [.compare "age" ">=" (.int 18),
      .all [.nullCheck "owner" true, .template "len(name) = ?" [.int 3]]],
    .all [.inList "kind" ["1", "NULL"] false, .any [.compare "kind" "<" (.int 9)]]]

theorem toExpr_nested (c : Clause) : nested.toExpr id c = .ok nestedExpr := rfl

end Filter

end TableAccess
