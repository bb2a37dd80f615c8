import TableAccess.Proofs.FilterGrammar

/-!
# The two stages of a filter

Untyped data are first read as a filter and the filter is then made into an expression, and each
stage refuses faults of its own. Reading looks at what kind of data stands under which key
(`Grammar.IsReadable`), making an expression at columns, operators, literals, placeholders and
groups without members (`Filter.IsSound`). Both are said without the functions that check them.
-/
namespace TableAccess

namespace Grammar
open Json Condition

/-- What stands for an operator, known or not. -/
inductive OperatorGiven : Option Json → Prop
  | missing : OperatorGiven none
  | null : OperatorGiven (some .null)
  | text (s : String) : OperatorGiven (some (.string s))

/-- What stands for the value of an entry, whatever its operator. -/
inductive IsValue : Json → Prop
  | list {items : List Json} (h : ∀ j ∈ items, j.IsScalar) : IsValue (.array items)
  | scalar {j : Json} (h : j.IsScalar) : IsValue j

/-- An entry that can be read. -/
inductive IsReadableEntry : Json → Prop
  | any {members : List (String × Json)} {items : List Json}
      (hor : find? "or" members = some (.array items)) (h : ∀ j ∈ items, IsReadableEntry j) :
    IsReadableEntry (.object members)
  | all {members : List (String × Json)} {items : List Json}
      (hor : find? "or" members = none) (hand : find? "and" members = some (.array items))
      (h : ∀ j ∈ items, IsReadableEntry j) : IsReadableEntry (.object members)
  | raw {members : List (String × Json)} {sql : String} {n : Nat}
      (hor : find? "or" members = none) (hand : find? "and" members = none)
      (hraw : find? "raw" members = some (.string sql))
      (hparams : ParamsAre (find? "params" members) n) : IsReadableEntry (.object members)
  | compare {members : List (String × Json)} {column : String} {value : Json}
      (hor : find? "or" members = none) (hand : find? "and" members = none)
      (hraw : find? "raw" members = none)
      (hcolumn : either "col" "column" members = some (.string column))
      (hop : OperatorGiven (either "op" "operator" members))
      (hvalue : either "val" "value" members = some value) (h : IsValue value) :
    IsReadableEntry (.object members)

/-- Data that can be read as a filter. -/
inductive IsReadable : Json → Prop
  | entries {items : List Json} (h : ∀ j ∈ items, IsReadableEntry j) : IsReadable (.array items)

end Grammar

/-- A value that can be written into the text of a statement. -/
def Value.IsLiteral : Value → Prop
  | .float x => x.isFinite = true
  | _ => True

/-- The right side of a comparison suits its operator. -/
inductive Operand.Suits : Option String → Operand → Prop
  | list {op : Option String} {vs : List Value}
      (hop : op = none ∨ op = some "IN" ∨ op = some "NOT IN") (h : ∀ v ∈ vs, v.IsLiteral) :
    Suits op (.list vs)
  | member {op : Option String} {v : Value} (hop : op = some "IN" ∨ op = some "NOT IN")
      (h : v.IsLiteral) : Suits op (.scalar v)
  | null {op : Option String} (hop : op = some "IS" ∨ op = some "IS NOT") :
    Suits op (.scalar .null)
  | scalar {op : Option String} {v : Value}
      (hop : ∀ s ∈ op, s ∉ ["IN", "NOT IN", "IS", "IS NOT"]) : Suits op (.scalar v)

/-- A condition that an expression can be made of. -/
inductive Condition.IsSound : Condition → Prop
  | compare {column : String} {op : Option String} {operand : Operand}
      (hcolumn : Text.isAllBlank column = false)
      (hop : ∀ s ∈ op.map Operator.normalized, s ∈ Grammar.operators)
      (h : operand.Suits (op.map Operator.normalized)) : IsSound (.compare column op operand)
  | raw {sql : String} {params : List Value} (hblank : Text.isAllBlank sql = false)
      (hcount : sql.toList.count '?' = params.length) : IsSound (.raw sql params)
  | any {xs : List Condition} (hne : xs ≠ []) (h : ∀ x ∈ xs, IsSound x) : IsSound (.any xs)
  | all {xs : List Condition} (hne : xs ≠ []) (h : ∀ x ∈ xs, IsSound x) : IsSound (.all xs)

def Filter.IsSound (f : Filter) : Prop := ∀ x ∈ f.conditions, x.IsSound

namespace Condition
open Json Grammar
variable {quote : String → String} {c : Clause}

section Reading

theorem operatorGiven_iff {j : Option Json} :
    OperatorGiven j ↔ ∃ op, operatorOfJson c j = .ok op := by
  constructor
  · intro h
    cases h with
    | missing | null => exact ⟨none, rfl⟩
    | text s => exact ⟨some s, rfl⟩
  · rintro ⟨op, hop⟩
    rcases j with _ | j
    · exact .missing
    · cases j with
      | null => exact .null
      | string s => exact .text s
      | _ => cases hop

theorem isValue_iff {j : Json} : IsValue j ↔ ∃ operand, IsOperand j operand := by
  constructor
  · intro h
    cases h with
    | list hitems =>
      simp only [isScalar_iff] at hitems
      obtain ⟨vs, hvs⟩ := exists_forall₂_iff.mpr hitems
      exact ⟨_, .list hvs⟩
    | scalar hj =>
      obtain ⟨v, hv⟩ := isScalar_iff.mp hj
      exact ⟨_, .scalar hv⟩
  · rintro ⟨operand, h⟩
    cases h with
    | list hvs => exact .list (isScalar_of_forall₂ hvs)
    | scalar hv => exact .scalar (isScalar_iff.mpr ⟨_, hv⟩)

theorem exists_ofJson_of_isReadableEntry {j : Json} (h : IsReadableEntry j) :
    ∃ x, ofJson c j = .ok x := by
  induction h with
  | any hor _ ih =>
    obtain ⟨xs, hxs⟩ := exists_forall₂_iff.mpr ih
    exact ⟨_, ofJson_eq_ok.mpr (.any hor hxs)⟩
  | all hor hand _ ih =>
    obtain ⟨xs, hxs⟩ := exists_forall₂_iff.mpr ih
    exact ⟨_, ofJson_eq_ok.mpr (.all hor hand hxs)⟩
  | raw hor hand hraw hparams =>
    obtain ⟨params, hparams, -⟩ := exists_rawParams.mpr hparams
    exact ⟨_, ofJson_eq_ok.mpr (.raw hor hand hraw hparams)⟩
  | compare hor hand hraw hcolumn hop hvalue h =>
    obtain ⟨op, hop⟩ := operatorGiven_iff.mp hop
    obtain ⟨operand, hoperand⟩ := isValue_iff.mp h
    rw [← operandOfJson_eq_ok, ← hvalue] at hoperand
    exact ⟨_, ofJson_eq_ok.mpr (.compare hor hand hraw hcolumn hop hoperand)⟩

/-- What was read could be read, by induction on the condition that it was read as. -/
theorem isReadableEntry_of_ofJson {j : Json} {x : Condition} (h : ofJson c j = .ok x) :
    IsReadableEntry j := by
  induction x using memberInduction generalizing j with
  | compare column op operand =>
    cases ofJson_eq_ok.mp h with
    | @compare members _ _ _ hor hand hraw hcolumn hop hoperand =>
      cases hvalue : either "val" "value" members with
      | none => simp [hvalue, operandOfJson] at hoperand
      | some value =>
        rw [hvalue] at hoperand
        exact .compare hor hand hraw hcolumn (operatorGiven_iff.mpr ⟨op, hop⟩) hvalue
          (isValue_iff.mpr ⟨operand, operandOfJson_eq_ok.mp hoperand⟩)
  | raw sql params =>
    cases ofJson_eq_ok.mp h with
    | raw hor hand hraw hparams =>
      exact .raw hor hand hraw (exists_rawParams.mp ⟨params, hparams, rfl⟩)
  | any xs ih =>
    cases ofJson_eq_ok.mp h with
    | any hor hxs =>
      refine .any hor fun j hj => ?_
      obtain ⟨x, hx, hread⟩ := exists_mem_of_forall₂ hxs.flip hj
      exact ih x hx hread
  | all xs ih =>
    cases ofJson_eq_ok.mp h with
    | all hor hand hxs =>
      refine .all hor hand fun j hj => ?_
      obtain ⟨x, hx, hread⟩ := exists_mem_of_forall₂ hxs.flip hj
      exact ih x hx hread

end Reading

section Lowering

theorem exists_literal_iff {column : String} {v : Value} :
    (∃ l, literal quote c column v = .ok l) ↔ v.IsLiteral := by
  cases v with
  | float x => cases hx : x.isFinite <;> simp [literal, Value.IsLiteral, hx]
  | null | bool | int | text => simp [literal, Value.IsLiteral]

theorem suits_of_compared {column : String} {o : Operator} {operand : Operand} {e : Sql.Expr}
    (h : Compared quote c column o operand e) : operand.Suits (some o.sql) := by
  cases h with
  | members ho hliterals =>
    refine .list (by simpa using Operator.isMembership_iff.mp ho) fun v hv => ?_
    exact exists_literal_iff.mp (exists_forall₂_iff.mp ⟨_, hliterals⟩ v hv)
  | single ho hl =>
    exact .member (by simpa using Operator.isMembership_iff.mp ho) (exists_literal_iff.mp ⟨_, hl⟩)
  | null _ ho => exact .null (by simpa using Operator.is_or_isNot_iff.mp ho)
  | bound v hmember ho =>
    refine .scalar fun s hs => ?_
    cases hs
    cases o <;> simp [Operator.isMembership, Operator.sql] at hmember ho ⊢

theorem exists_compared_of_suits {column : String} {o : Operator} {operand : Operand}
    (h : operand.Suits (some o.sql)) : ∃ e, Compared quote c column o operand e := by
  cases h with
  | list hop hvs =>
    have ho : o.isMembership = true := Operator.isMembership_iff.mpr (by simpa using hop)
    obtain ⟨literals, hliterals⟩ :=
      exists_forall₂_iff.mpr fun v hv => exists_literal_iff.mpr (hvs v hv)
    exact ⟨_, .members ho hliterals⟩
  | member hop hv =>
    have ho : o.isMembership = true := Operator.isMembership_iff.mpr (by simpa using hop)
    obtain ⟨l, hl⟩ := exists_literal_iff.mpr hv
    exact ⟨_, .single ho hl⟩
  | null hop =>
    have ho : (o == .is || o == .isNot) = true :=
      Operator.is_or_isNot_iff.mpr (by simpa using hop)
    have hmember : o.isMembership = false := by
      cases o <;> simp [Operator.isMembership] at ho ⊢
    exact ⟨_, .null hmember ho⟩
  | @scalar v hop =>
    have hplain : o.sql ∉ ["IN", "NOT IN", "IS", "IS NOT"] := hop _ rfl
    refine ⟨_, .bound v ?_ ?_⟩
    · cases o <;> simp [Operator.sql] at hplain <;> rfl
    · cases o <;> simp [Operator.sql] at hplain <;> rfl

theorem exists_lowerOperand_iff {column : String} {o : Operator} {operand : Operand} :
    (∃ e, lowerOperand quote c column o operand = .ok e) ↔ operand.Suits (some o.sql) := by
  simp only [lowerOperand_eq_ok]
  exact ⟨fun ⟨_, h⟩ => suits_of_compared h, exists_compared_of_suits⟩

theorem resolveOperator_some {column : String} {operand : Operand} {s : String} {o : Operator} :
    resolveOperator c column operand (some s) = .ok o ↔ o.sql = Operator.normalized s := by
  rw [← Operator.parse?_eq_some]
  cases hs : Operator.parse? s <;> simp [resolveOperator, hs]

/-- Without an operator a list is compared by membership and a single value by equality. -/
theorem exists_lowerOperand_default {column : String} {operand : Operand} :
    (∃ o, resolveOperator c column operand none = .ok o ∧
        ∃ e, lowerOperand quote c column o operand = .ok e) ↔ operand.Suits none := by
  simp only [exists_lowerOperand_iff]
  cases operand with
  | list vs =>
    constructor
    · rintro ⟨o, -, h⟩
      cases h with
      | list _ hvs => exact .list (.inl rfl) hvs
    · intro h
      cases h with
      | list _ hvs => exact ⟨.isIn, rfl, .list (by simp [Operator.sql]) hvs⟩
  | scalar v =>
    constructor
    · intro _
      exact .scalar (by simp)
    · intro _
      exact ⟨.eq, rfl, .scalar (by simp [Operator.sql])⟩

theorem exists_lowersTo_compare {column : String} {op : Option String} {operand : Operand} :
    (∃ e, LowersTo quote c (.compare column op operand) e) ↔
      (compare column op operand).IsSound := by
  have hsound : (compare column op operand).IsSound ↔ Text.isAllBlank column = false ∧
      (∀ s ∈ op.map Operator.normalized, s ∈ operators) ∧
        operand.Suits (op.map Operator.normalized) := by
    constructor
    · rintro (⟨hcolumn, hop, h⟩)
      exact ⟨hcolumn, hop, h⟩
    · rintro ⟨hcolumn, hop, h⟩
      exact .compare hcolumn hop h
  have hlowers : (∃ e, LowersTo quote c (.compare column op operand) e) ↔
      Text.isAllBlank column = false ∧
        ∃ o, resolveOperator c (Text.trim column) operand op = .ok o ∧
          ∃ e, lowerOperand quote c (Text.trim column) o operand = .ok e := by
    simp only [lowersTo_compare, Text.isEmpty_trim]
    constructor
    · rintro ⟨e, hblank, o, ho, he⟩
      exact ⟨hblank, o, ho, e, he⟩
    · rintro ⟨hblank, o, ho, e, he⟩
      exact ⟨e, hblank, o, ho, he⟩
  rw [hsound, hlowers]
  cases op with
  | none => simp [exists_lowerOperand_default]
  | some s =>
    simp only [resolveOperator_some, exists_lowerOperand_iff, Option.map_some, Option.mem_def,
      Option.some.injEq, forall_eq', Operator.mem_operators]
    refine and_congr_right fun _ => ?_
    constructor
    · rintro ⟨o, ho, h⟩
      exact ⟨⟨o, ho⟩, ho ▸ h⟩
    · rintro ⟨⟨o, ho⟩, h⟩
      exact ⟨o, ho, ho.symm ▸ h⟩

variable (quote c) in
/-- Exactly the sound conditions are made into expressions. -/
theorem exists_lowersTo {x : Condition} : (∃ e, LowersTo quote c x e) ↔ x.IsSound := by
  induction x using memberInduction with
  | compare column op operand => exact exists_lowersTo_compare
  | raw sql params =>
    simp only [lowersTo_raw]
    constructor
    · rintro ⟨e, hblank, hcount, -⟩
      exact .raw hblank hcount
    · rintro (_ | ⟨hblank, hcount⟩)
      exact ⟨_, hblank, hcount, rfl⟩
  | any xs ih =>
    simp only [lowersTo_any]
    constructor
    · rintro ⟨-, hne, es, hes, -⟩
      exact .any hne fun x hx => (ih x hx).mp (exists_forall₂_iff.mp ⟨es, hes⟩ x hx)
    · rintro (_ | _ | ⟨hne, h⟩)
      obtain ⟨es, hes⟩ := exists_forall₂_iff.mpr fun x hx => (ih x hx).mpr (h x hx)
      exact ⟨_, hne, es, hes, rfl⟩
  | all xs ih =>
    simp only [lowersTo_all]
    constructor
    · rintro ⟨-, hne, es, hes, -⟩
      exact .all hne fun x hx => (ih x hx).mp (exists_forall₂_iff.mp ⟨es, hes⟩ x hx)
    · rintro (_ | _ | _ | ⟨hne, h⟩)
      obtain ⟨es, hes⟩ := exists_forall₂_iff.mpr fun x hx => (ih x hx).mpr (h x hx)
      exact ⟨_, hne, es, hes, rfl⟩

end Lowering

end Condition

namespace Filter
open Condition
variable {quote : String → String} {c : Clause}

theorem exists_ofJson {j : Json} : (∃ f, Filter.ofJson c j = .ok f) ↔ Grammar.IsReadable j := by
  constructor
  · rintro ⟨f, hf⟩
    obtain ⟨xs, hxs, -⟩ := map_eq_ok.mp hf
    obtain ⟨items, rfl, hitems⟩ := listOfJson_eq_ok.mp hxs
    refine .entries fun j hj => ?_
    obtain ⟨x, hx⟩ := exists_forall₂_iff.mp ⟨xs, hitems⟩ j hj
    exact isReadableEntry_of_ofJson hx
  · rintro ⟨h⟩
    obtain ⟨xs, hxs⟩ :=
      exists_forall₂_iff.mpr fun j hj => exists_ofJson_of_isReadableEntry (c := c) (h j hj)
    exact ⟨⟨xs⟩, map_eq_ok.mpr ⟨xs, listOfJson_eq_ok.mpr ⟨_, rfl, hxs⟩, rfl⟩⟩

variable (quote c) in
theorem exists_toExpr {f : Filter} : (∃ e, f.toExpr quote c = .ok e) ↔ f.IsSound := by
  simp only [toExpr_eq_ok, IsSound, ← exists_lowersTo quote c,
    ← exists_forall₂_iff]
  constructor
  · rintro ⟨-, es, hes, -⟩
    exact ⟨es, hes⟩
  · rintro ⟨es, hes⟩
    exact ⟨_, es, hes, rfl⟩

/-- What was read is a filter of the grammar if it is sound. -/
theorem isFilter_iff {j : Json} {f : Filter} (h : Filter.ofJson c j = .ok f) :
    Grammar.IsFilter j ↔ f.IsSound := by
  -- Compiling for any target tells the filters of the grammar from the rest.
  let t := Dialect.mysql.target
  have hcompiles : (∃ text ps', f.compileInto t c .empty = .ok (text, ps')) ↔
      Grammar.IsFilter j := by
    rw [← compiles_iff (t := t) (c := c), h]
    rfl
  rw [← hcompiles, ← exists_toExpr t.quote c]
  constructor
  · rintro ⟨text, ps', hf⟩
    obtain ⟨e, he, -⟩ := map_eq_ok.mp hf
    exact ⟨e, he⟩
  · rintro ⟨e, he⟩
    exact ⟨_, _, map_eq_ok.mpr ⟨e, he, rfl⟩⟩

theorem kind_of_ofJson_eq_error {j : Json} {e : Error} (h : Filter.ofJson c j = .error e) :
    e.kind = c.errorKind := by
  obtain ⟨fault, rfl⟩ := (failsOnly_listOfJson j).map Filter.mk e h
  rfl

theorem kind_of_toExpr_eq_error {f : Filter} {e : Error} (h : f.toExpr quote c = .error e) :
    e.kind = c.errorKind := by
  obtain ⟨fault, rfl⟩ := (failsOnly_lowerAll f.conditions).map Sql.Expr.all e h
  rfl

end Filter

end TableAccess
