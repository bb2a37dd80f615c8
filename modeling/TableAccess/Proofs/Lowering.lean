import TableAccess.Condition.Lowering
import TableAccess.Proofs.Traversals

/-!
# Which conditions are accepted

What is known of a condition and its expression once the one was made from the other. A group is
accepted if it is not empty and its members are; nothing accepted is an empty expression.
-/
namespace TableAccess

namespace Condition

/-- Induction on conditions, with the property for every member of a group. -/
theorem memberInduction {P : Condition → Prop}
    (compare : ∀ column op operand, P (.compare column op operand))
    (raw : ∀ sql params, P (.raw sql params))
    (any : ∀ xs, (∀ x ∈ xs, P x) → P (.any xs))
    (all : ∀ xs, (∀ x ∈ xs, P x) → P (.all xs)) : ∀ x, P x
  | .compare column op operand => compare column op operand
  | .raw sql params => raw sql params
  | .any xs => any xs fun x _ => memberInduction compare raw any all x
  | .all xs => all xs fun x _ => memberInduction compare raw any all x

/-- A condition is accepted, with this expression. -/
def LowersTo (quote : String → String) (c : Clause) (x : Condition) (e : Sql.Expr) : Prop :=
  lower quote c x = .ok e

variable {quote : String → String} {c : Clause}

theorem lowerAll_eq_ok {xs : List Condition} {es : List Sql.Expr} :
    lowerAll quote c xs = .ok es ↔ List.Forall₂ (LowersTo quote c) xs es := by
  induction xs generalizing es with
  | nil => simp [lowerAll, eq_comm]
  | cons x xs ih =>
    simp only [lowerAll, bind_eq_ok, pure, Except.pure, Except.ok.injEq,
      List.forall₂_cons_left_iff, LowersTo]
    constructor
    · rintro ⟨e, he, es', hes, rfl⟩
      exact ⟨e, es', he, ih.mp hes, rfl⟩
    · rintro ⟨e, es', he, hes, rfl⟩
      exact ⟨e, he, es', ih.mpr hes, rfl⟩

theorem lowersTo_raw {sql : String} {params : List Value} {e : Sql.Expr} :
    LowersTo quote c (.raw sql params) e ↔
      Text.isAllBlank sql = false ∧ sql.toList.count '?' = params.length ∧
        e = .template sql params := by
  simp only [LowersTo, lower, lowerRaw]
  split_ifs with hblank hcount
  · simp [hblank]
  · simp [hcount]
  · simp [hblank, not_not.mp hcount, eq_comm]

theorem lowersTo_any {xs : List Condition} {e : Sql.Expr} :
    LowersTo quote c (.any xs) e ↔
      xs ≠ [] ∧ ∃ es, List.Forall₂ (LowersTo quote c) xs es ∧ e = .any es := by
  simp only [LowersTo, lower]
  cases xs with
  | nil => simp
  | cons x xs => simp [map_eq_ok, lowerAll_eq_ok, @eq_comm _ e]

theorem lowersTo_all {xs : List Condition} {e : Sql.Expr} :
    LowersTo quote c (.all xs) e ↔
      xs ≠ [] ∧ ∃ es, List.Forall₂ (LowersTo quote c) xs es ∧ e = .all es := by
  simp only [LowersTo, lower]
  cases xs with
  | nil => simp
  | cons x xs => simp [map_eq_ok, lowerAll_eq_ok, @eq_comm _ e]

theorem lowersTo_compare {column : String} {op : Option String} {operand : Operand}
    {e : Sql.Expr} :
    LowersTo quote c (.compare column op operand) e ↔
      (Text.trim column).isEmpty = false ∧
        ∃ o, resolveOperator c (Text.trim column) operand op = .ok o ∧
          lowerOperand quote c (Text.trim column) o operand = .ok e := by
  simp only [LowersTo, lower, lowerCompare]
  split_ifs with hblank
  · simp [hblank]
  · simp [hblank, bind_eq_ok]

theorem membership_eq_ok {column : String} {vs : List Value} {negated : Bool} {e : Sql.Expr} :
    membership quote c column vs negated = .ok e ↔
      ∃ literals, List.Forall₂ (fun v l => literal quote c column v = .ok l) vs literals ∧
        e = Sql.Expr.inLiterals column literals negated := by
  simp [membership, map_eq_ok, mapM_eq_ok, @eq_comm _ e]

theorem isGrouped_inLiterals (column : String) (literals : List String) (negated : Bool) :
    (Sql.Expr.inLiterals column literals negated).isGrouped = false := by
  cases literals <;> cases negated <;> rfl

/-- What becomes of a comparison whose column and operator are known. -/
inductive Compared (quote : String → String) (c : Clause) (column : String) (o : Operator) :
    Operand → Sql.Expr → Prop
  | members {vs : List Value} {literals : List String} (ho : o.isMembership)
      (h : List.Forall₂ (fun v l => literal quote c column v = .ok l) vs literals) :
    Compared quote c column o (.list vs) (.inLiterals column literals (o == .notIn))
  | single {v : Value} {l : String} (ho : o.isMembership)
      (h : literal quote c column v = .ok l) :
    Compared quote c column o (.scalar v) (.inLiterals column [l] (o == .notIn))
  | null (hmember : o.isMembership = false) (ho : o == .is || o == .isNot) :
    Compared quote c column o (.scalar .null) (.nullCheck column (o == .is))
  | bound (v : Value) (hmember : o.isMembership = false)
      (ho : (o == .is || o == .isNot) = false) :
    Compared quote c column o (.scalar v) (.compare column o.sql v)

theorem lowerOperand_eq_ok {column : String} {o : Operator} {operand : Operand} {e : Sql.Expr} :
    lowerOperand quote c column o operand = .ok e ↔ Compared quote c column o operand e := by
  constructor
  · intro h
    cases operand with
    | list vs =>
      simp only [lowerOperand] at h
      split_ifs at h with ho
      obtain ⟨literals, hliterals, rfl⟩ := membership_eq_ok.mp h
      exact .members ho hliterals
    | scalar v =>
      simp only [lowerOperand] at h
      split_ifs at h with ho his hnull
      · obtain ⟨literals, hliterals, rfl⟩ := membership_eq_ok.mp h
        cases hliterals with
        | cons hl hrest =>
          cases hrest
          exact .single ho hl
      · cases v with
        | null =>
          cases h
          exact .null (by simpa using ho) his
        | _ => simp [Value.isNull] at hnull
      · cases h
        exact .bound v (by simpa using ho) (by simpa using his)
  · rintro (⟨ho, hliterals⟩ | ⟨ho, hl⟩ | ⟨hmember, ho⟩ | ⟨v, hmember, ho⟩)
    · simp only [lowerOperand, ho, if_true]
      exact membership_eq_ok.mpr ⟨_, hliterals, rfl⟩
    · simp only [lowerOperand, ho, if_true]
      exact membership_eq_ok.mpr ⟨_, .cons hl .nil, rfl⟩
    · simp [lowerOperand, hmember, ho, Value.isNull]
    · simp [lowerOperand, hmember, ho]

/-- A comparison becomes an expression that needs no parentheses. -/
theorem isGrouped_compare {column : String} {op : Option String} {operand : Operand}
    {e : Sql.Expr} (h : LowersTo quote c (.compare column op operand) e) :
    e.isGrouped = false := by
  obtain ⟨-, o, -, he⟩ := lowersTo_compare.mp h
  cases lowerOperand_eq_ok.mp he with
  | members | single => exact isGrouped_inLiterals _ _ _
  | null | bound => rfl

theorem isEmpty_of_isGrouped {e : Sql.Expr} (h : e.isGrouped = false) : e.isEmpty = false := by
  cases e with
  | all | any | template => simp [Sql.Expr.isGrouped] at h
  | compare | nullCheck | inList | always | never => rfl

/-- Nothing accepted is empty. -/
theorem LowersTo.isEmpty {x : Condition} {e : Sql.Expr} (h : LowersTo quote c x e) :
    e.isEmpty = false := by
  induction x using memberInduction generalizing e with
  | compare column op operand => exact isEmpty_of_isGrouped (isGrouped_compare h)
  | raw sql params =>
    obtain ⟨-, -, rfl⟩ := lowersTo_raw.mp h
    rfl
  | any xs ih =>
    obtain ⟨hne, es, hes, rfl⟩ := lowersTo_any.mp h
    cases hes with
    | nil => exact absurd rfl hne
    | cons hx _ => simp [Sql.Expr.isEmpty, Sql.Expr.allEmpty, ih _ (by simp) hx]
  | all xs ih =>
    obtain ⟨hne, es, hes, rfl⟩ := lowersTo_all.mp h
    cases hes with
    | nil => exact absurd rfl hne
    | cons hx _ => simp [Sql.Expr.isEmpty, Sql.Expr.allEmpty, ih _ (by simp) hx]

end Condition

/-- A filter is accepted if every entry is. -/
theorem Filter.toExpr_eq_ok {quote : String → String} {c : Clause} {f : Filter} {e : Sql.Expr} :
    f.toExpr quote c = .ok e ↔
      ∃ es, List.Forall₂ (Condition.LowersTo quote c) f.conditions es ∧ e = .all es := by
  simp [toExpr, map_eq_ok, Condition.lowerAll_eq_ok, @eq_comm _ e]

end TableAccess
