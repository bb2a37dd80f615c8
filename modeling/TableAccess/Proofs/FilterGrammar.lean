import Mathlib.Data.List.TakeWhile
import TableAccess.Proofs.Clauses
import TableAccess.Proofs.FilterFaults
import TableAccess.Proofs.FilterReading

/-!
# The grammar of filters in untyped data

Which data are filters, said without the reader and without the expressions that are made from what
it reads. An entry is of the first form whose key it has. Exactly these data are read and compiled,
and everything else is refused with an error of the clause, at whatever depth the fault is.
-/
namespace TableAccess

namespace Json

def IsScalar : Json → Prop
  | .array _ | .object _ => False
  | _ => True

theorem isScalar_iff {j : Json} : j.IsScalar ↔ ∃ v, Value.ofJson? j = some v := by
  cases j <;> simp [IsScalar, Value.ofJson?]

end Json

namespace Grammar
open Json Condition

/-- The operators, as they are once blanks are collapsed and letters are capitals. -/
def operators : List String :=
  ["=", "!=", "<>", "<", "<=", ">", ">=", "LIKE", "NOT LIKE", "ILIKE", "NOT ILIKE", "IS",
    "IS NOT", "IN", "NOT IN"]

/-- What stands for the operator of an entry, and the operator if there is one. -/
inductive OperatorIs : Option Json → Option String → Prop
  | missing : OperatorIs none none
  | null : OperatorIs (some .null) none
  | text {s : String} (h : Operator.normalized s ∈ operators) :
    OperatorIs (some (.string s)) (some (Operator.normalized s))

/-- The value of an entry suits its operator. -/
inductive Suits : Option String → Json → Prop
  | list {op : Option String} {items : List Json}
      (hop : op = none ∨ op = some "IN" ∨ op = some "NOT IN") (h : ∀ j ∈ items, j.IsScalar) :
    Suits op (.array items)
  | scalar {op : Option String} {j : Json}
      (hnull : op = some "IS" ∨ op = some "IS NOT" → j = .null) (h : j.IsScalar) : Suits op j

/-- What stands for the parameters of a raw text, and how many there are. -/
inductive ParamsAre : Option Json → Nat → Prop
  | missing : ParamsAre none 0
  | null : ParamsAre (some .null) 0
  | list {items : List Json} (h : ∀ j ∈ items, j.IsScalar) :
    ParamsAre (some (.array items)) items.length

/-- An entry of a filter. -/
inductive IsEntry : Json → Prop
  | any {members : List (String × Json)} {items : List Json}
      (hor : find? "or" members = some (.array items)) (hne : items ≠ [])
      (h : ∀ j ∈ items, IsEntry j) : IsEntry (.object members)
  | all {members : List (String × Json)} {items : List Json}
      (hor : find? "or" members = none) (hand : find? "and" members = some (.array items))
      (hne : items ≠ []) (h : ∀ j ∈ items, IsEntry j) : IsEntry (.object members)
  | raw {members : List (String × Json)} {sql : String}
      (hor : find? "or" members = none) (hand : find? "and" members = none)
      (hraw : find? "raw" members = some (.string sql)) (hblank : Text.isAllBlank sql = false)
      (hparams : ParamsAre (find? "params" members) (sql.toList.count '?')) :
    IsEntry (.object members)
  | compare {members : List (String × Json)} {column : String} {op : Option String} {value : Json}
      (hor : find? "or" members = none) (hand : find? "and" members = none)
      (hraw : find? "raw" members = none)
      (hcolumn : either "col" "column" members = some (.string column))
      (hblank : Text.isAllBlank column = false)
      (hop : OperatorIs (either "op" "operator" members) op)
      (hvalue : either "val" "value" members = some value) (hsuits : Suits op value) :
    IsEntry (.object members)

/-- A filter is an array of entries, which only at the top may be empty. -/
inductive IsFilter : Json → Prop
  | entries {items : List Json} (h : ∀ j ∈ items, IsEntry j) : IsFilter (.array items)

end Grammar

namespace Text

theorem trimChars_eq_nil {cs : List Char} : trimChars cs = [] ↔ ∀ c ∈ cs, isBlank c = true := by
  simp only [trimChars, List.reverse_eq_nil_iff, List.dropWhile_eq_nil_iff, List.mem_reverse]
  constructor
  · intro h c hc
    rw [← List.takeWhile_append_dropWhile (p := isBlank) (l := cs)] at hc
    rcases List.mem_append.mp hc with hc | hc
    · exact List.mem_takeWhile_imp hc
    · exact h c hc
  · intro h c hc
    exact h c ((List.dropWhile_sublist _).subset hc)

theorem isEmpty_trim (s : String) : (trim s).isEmpty = isAllBlank s := by
  rw [Bool.eq_iff_iff, isAllBlank, List.all_eq_true, ← trimChars_eq_nil, String.isEmpty_iff, trim]
  exact String.ofList_eq_empty_iff

end Text

namespace Operator

theorem parse?_sql (o : Operator) : all.find? (·.sql == o.sql) = some o := by
  cases o <;> rfl

theorem parse?_eq_some {s : String} {o : Operator} :
    parse? s = some o ↔ o.sql = normalized s := by
  constructor
  · intro h
    have hfound := List.find?_some h
    exact beq_iff_eq.mp hfound
  · intro h
    rw [parse?, ← h]
    exact parse?_sql o

theorem mem_operators {op : String} : op ∈ Grammar.operators ↔ ∃ o : Operator, o.sql = op := by
  have hall : Grammar.operators = all.map sql := rfl
  have hmem : ∀ o : Operator, o ∈ all := fun o => List.mem_of_find?_eq_some (parse?_sql o)
  simp [hall, hmem]

theorem isMembership_iff {o : Operator} :
    o.isMembership = true ↔ o.sql = "IN" ∨ o.sql = "NOT IN" := by
  cases o <;> simp [isMembership, sql]

theorem is_or_isNot_iff {o : Operator} :
    (o == .is || o == .isNot) = true ↔ o.sql = "IS" ∨ o.sql = "IS NOT" := by
  cases o <;> simp [sql]

end Operator

namespace Condition
open Json Grammar
variable {quote : String → String} {c : Clause}

theorem exists_literal (c : Clause) (column : String) {j : Json} {v : Value}
    (hv : Value.ofJson? j = some v) : ∃ l, literal quote c column v = .ok l := by
  cases j with
  | null | bool | string =>
    cases hv
    exact ⟨_, rfl⟩
  | int i =>
    cases hv
    unfold Value.ofInteger
    split_ifs
    · exact ⟨_, rfl⟩
    · -- An integer that no signed word holds is bound as the number it is rounded to.
      have hrange := i.inRange
      have hfinite : (Binary64.ofInt i.val).isFinite = true :=
        Binary64.isFinite_ofInt (by omega)
      simp [literal, hfinite]
  | float x =>
    cases hv
    simp [literal, x.isFinite]
  | array | object => cases hv

theorem exists_scalars {e : Error} {items : List Json} :
    (∃ vs, scalars e items = .ok vs) ↔ ∀ j ∈ items, j.IsScalar := by
  simp only [scalars_eq_ok, exists_forall₂_iff, isScalar_iff]

theorem exists_rawParams {params : Option Json} {n : Nat} :
    (∃ vs, rawParams c params = .ok vs ∧ n = vs.length) ↔ ParamsAre params n := by
  constructor
  · rintro ⟨vs, hvs, rfl⟩
    cases params with
    | none =>
      cases hvs
      exact .missing
    | some params =>
      cases params with
      | null =>
        cases hvs
        exact .null
      | array items =>
        have hlength := (scalars_eq_ok.mp hvs).length_eq
        rw [← hlength]
        exact .list (exists_scalars.mp ⟨vs, hvs⟩)
      | _ => cases hvs
  · intro h
    cases h with
    | missing => exact ⟨[], rfl, rfl⟩
    | null => exact ⟨[], rfl, rfl⟩
    | list h =>
      obtain ⟨vs, hvs⟩ := exists_scalars.mpr h
      exact ⟨vs, hvs, (scalars_eq_ok.mp hvs).length_eq⟩

theorem operatorIs_iff {j : Option Json} {name : Option String} :
    OperatorIs j name ↔
      ∃ op, operatorOfJson c j = .ok op ∧ op.map Operator.normalized = name ∧
        ∀ s ∈ name, s ∈ operators := by
  constructor
  · intro h
    cases h with
    | missing | null => exact ⟨none, rfl, rfl, by simp⟩
    | @text s hs => exact ⟨some s, rfl, rfl, by simpa using hs⟩
  · rintro ⟨op, hop, rfl, hknown⟩
    cases j with
    | none =>
      cases hop
      exact .missing
    | some j =>
      cases j with
      | null =>
        cases hop
        exact .null
      | string s =>
        cases hop
        exact .text (hknown _ rfl)
      | _ => cases hop

theorem exists_lowerOperand_list {column : String} {o : Operator} {vs : List Value}
    (hliteral : ∀ v ∈ vs, ∃ l, literal quote c column v = .ok l) :
    (∃ e, lowerOperand quote c column o (.list vs) = .ok e) ↔ o.isMembership = true := by
  constructor
  · rintro ⟨e, he⟩
    cases lowerOperand_eq_ok.mp he with
    | members ho => exact ho
  · intro ho
    obtain ⟨literals, hliterals⟩ := exists_forall₂_iff.mpr hliteral
    exact ⟨_, lowerOperand_eq_ok.mpr (.members ho hliterals)⟩

theorem exists_lowerOperand_scalar {column : String} {o : Operator} {v : Value}
    (hliteral : ∃ l, literal quote c column v = .ok l) :
    (∃ e, lowerOperand quote c column o (.scalar v) = .ok e) ↔
      ((o == .is || o == .isNot) = true → v = .null) := by
  constructor
  · rintro ⟨e, he⟩ his
    cases lowerOperand_eq_ok.mp he with
    | single ho => cases o <;> simp [Operator.isMembership] at ho his
    | null => rfl
    | bound _ _ ho => simp [ho] at his
  · intro hnull
    cases ho : o.isMembership with
    | true =>
      obtain ⟨l, hl⟩ := hliteral
      exact ⟨_, lowerOperand_eq_ok.mpr (.single ho hl)⟩
    | false =>
      cases his : o == .is || o == .isNot with
      | true =>
        rw [hnull his]
        exact ⟨_, lowerOperand_eq_ok.mpr (.null ho his)⟩
      | false => exact ⟨_, lowerOperand_eq_ok.mpr (.bound v ho his)⟩

theorem eq_null_iff {j : Json} {v : Value} (h : Value.ofJson? j = some v) :
    v = .null ↔ j = .null := by
  cases j with
  | int i =>
    cases h
    unfold Value.ofInteger
    split_ifs <;> simp
  | array | object => cases h
  | _ =>
    cases h
    simp

theorem isScalar_of_forall₂ {items : List Json} {vs : List Value}
    (h : List.Forall₂ (fun j v => Value.ofJson? j = some v) items vs) :
    ∀ j ∈ items, j.IsScalar := by
  simp only [isScalar_iff]
  exact exists_forall₂_iff.mp ⟨vs, h⟩

theorem exists_isOperand {op : Option String} {j : Json} (h : Suits op j) :
    ∃ operand, IsOperand j operand := by
  cases h with
  | list _ hitems =>
    simp only [isScalar_iff] at hitems
    obtain ⟨vs, hvs⟩ := exists_forall₂_iff.mpr hitems
    exact ⟨_, .list hvs⟩
  | scalar _ hj =>
    obtain ⟨v, hv⟩ := isScalar_iff.mp hj
    exact ⟨_, .scalar hv⟩

theorem exists_lowerOperand {column : String} {o : Operator} {j : Json} {operand : Operand}
    (hoperand : IsOperand j operand) :
    (∃ e, lowerOperand quote c column o operand = .ok e) ↔ Suits (some o.sql) j := by
  cases hoperand with
  | @list items vs hvs =>
    have hliteral : ∀ v ∈ vs, ∃ l, literal quote c column v = .ok l := by
      intro v hv
      obtain ⟨i, -, hiv⟩ := exists_mem_of_forall₂ hvs hv
      exact exists_literal c column hiv
    rw [exists_lowerOperand_list hliteral, Operator.isMembership_iff]
    constructor
    · intro ho
      exact .list (by simpa using ho) (isScalar_of_forall₂ hvs)
    · intro hsuits
      cases hsuits with
      | list hop => simpa using hop
      | scalar _ h => exact h.elim
  | @scalar _ v hv =>
    rw [exists_lowerOperand_scalar (exists_literal c column hv), Operator.is_or_isNot_iff,
      eq_null_iff hv]
    constructor
    · intro hnull
      exact .scalar (by simpa using hnull) (isScalar_iff.mpr ⟨v, hv⟩)
    · intro hsuits
      cases hsuits with
      | list => cases hv
      | scalar hnull => simpa using hnull

/-- A comparison is made of an operator and a value that suits it. -/
theorem exists_compared {column : String} {op : Option String} {j : Json} {operand : Operand}
    (hoperand : IsOperand j operand) :
    (∃ o, resolveOperator c column operand op = .ok o ∧
        ∃ e, lowerOperand quote c column o operand = .ok e) ↔
      (∀ s ∈ op.map Operator.normalized, s ∈ operators) ∧
        Suits (op.map Operator.normalized) j := by
  simp only [exists_lowerOperand hoperand]
  cases op with
  | none =>
    simp only [Option.map_none, reduceCtorEq, false_implies, implies_true, true_and, Option.mem_def]
    cases hoperand with
    | list hvs =>
      have hitems := isScalar_of_forall₂ hvs
      have hsuits : Suits (some Operator.isIn.sql) (.array _) :=
        .list (by simp [Operator.sql]) hitems
      exact ⟨fun _ => .list (.inl rfl) hitems, fun _ => ⟨.isIn, rfl, hsuits⟩⟩
    | @scalar _ v hv =>
      have hscalar : j.IsScalar := isScalar_iff.mpr ⟨v, hv⟩
      have hsuits : Suits (some Operator.eq.sql) j := .scalar (by simp [Operator.sql]) hscalar
      exact ⟨fun _ => .scalar (by simp) hscalar, fun _ => ⟨.eq, rfl, hsuits⟩⟩
  | some s =>
    have hresolve : ∀ o, resolveOperator c column operand (some s) = .ok o ↔
        o.sql = Operator.normalized s := by
      intro o
      rw [← Operator.parse?_eq_some]
      cases hs : Operator.parse? s <;> simp [resolveOperator, hs]
    simp only [hresolve, Option.map_some, Option.mem_def, Option.some.injEq, forall_eq',
      Operator.mem_operators]
    constructor
    · rintro ⟨o, ho, hsuits⟩
      exact ⟨⟨o, ho⟩, ho ▸ hsuits⟩
    · rintro ⟨⟨o, ho⟩, hsuits⟩
      exact ⟨o, ho, ho.symm ▸ hsuits⟩

/-- An entry is accepted, read and lowered. -/
def Accepts (quote : String → String) (c : Clause) (j : Json) : Prop :=
  ∃ x, ofJson c j = .ok x ∧ ∃ e, LowersTo quote c x e

theorem exists_lowered {items : List Json} (h : ∀ j ∈ items, Accepts quote c j) :
    ∃ xs, List.Forall₂ (fun j x => ofJson c j = .ok x) items xs ∧
      ∃ es, List.Forall₂ (LowersTo quote c) xs es := by
  obtain ⟨xs, hxs⟩ := exists_forall₂_iff.mpr h
  refine ⟨xs, hxs.imp fun _ _ h => h.1, exists_forall₂_iff.mpr fun x hx => ?_⟩
  obtain ⟨j, -, -, hx⟩ := exists_mem_of_forall₂ hxs hx
  exact hx

/-- Entries are accepted, by induction on what makes them entries. -/
theorem accepts_of_isEntry {j : Json} (h : IsEntry j) : Accepts quote c j := by
  induction h with
  | any hor hne _ ih =>
    obtain ⟨xs, hxs, es, hes⟩ := exists_lowered ih
    exact ⟨_, ofJson_eq_ok.mpr (.any hor hxs), _,
      lowersTo_any.mpr ⟨(ne_nil_of_forall₂ hxs).mp hne, es, hes, rfl⟩⟩
  | all hor hand hne _ ih =>
    obtain ⟨xs, hxs, es, hes⟩ := exists_lowered ih
    exact ⟨_, ofJson_eq_ok.mpr (.all hor hand hxs), _,
      lowersTo_all.mpr ⟨(ne_nil_of_forall₂ hxs).mp hne, es, hes, rfl⟩⟩
  | raw hor hand hraw hblank hparams =>
    obtain ⟨params, hparams, hcount⟩ := exists_rawParams.mpr hparams
    exact ⟨_, ofJson_eq_ok.mpr (.raw hor hand hraw hparams), _,
      lowersTo_raw.mpr ⟨hblank, hcount, rfl⟩⟩
  | @compare members column name value hor hand hraw hcolumn hblank hop hvalue hsuits =>
    obtain ⟨op, hread, rfl, hknown⟩ := (operatorIs_iff (c := c)).mp hop
    obtain ⟨operand, hoperand⟩ := exists_isOperand hsuits
    obtain ⟨o, ho, e, he⟩ := (exists_compared hoperand).mpr ⟨hknown, hsuits⟩
    refine ⟨_, ofJson_eq_ok.mpr (.compare hor hand hraw hcolumn hread ?_), e,
      lowersTo_compare.mpr ⟨?_, o, ho, he⟩⟩
    · rw [hvalue]
      exact operandOfJson_eq_ok.mpr hoperand
    · rw [Text.isEmpty_trim, hblank]

theorem isEntry_of_members {items : List Json} {xs : List Condition} {es : List Sql.Expr}
    (hxs : List.Forall₂ (fun j x => ofJson c j = .ok x) items xs)
    (hes : List.Forall₂ (LowersTo quote c) xs es)
    (h : ∀ x ∈ xs, ∀ {e : Sql.Expr} {j : Json}, ofJson c j = .ok x →
      LowersTo quote c x e → IsEntry j) :
    ∀ j ∈ items, IsEntry j := by
  intro j hj
  obtain ⟨x, hx, hread⟩ := exists_mem_of_forall₂ hxs.flip hj
  obtain ⟨e, he⟩ := exists_forall₂_iff.mp ⟨es, hes⟩ x hx
  exact h x hx hread he

/-- What is accepted is an entry, by induction on what it is read as. -/
theorem isEntry_of_accepts {x : Condition} {e : Sql.Expr} {j : Json}
    (hx : ofJson c j = .ok x) (he : LowersTo quote c x e) : IsEntry j := by
  induction x using memberInduction generalizing j e with
  | compare column op operand =>
    obtain ⟨hblank, o, ho, he⟩ := lowersTo_compare.mp he
    cases ofJson_eq_ok.mp hx with
    | @compare members _ _ _ hor hand hraw hcolumn hop hoperand =>
      cases hvalue : either "val" "value" members with
      | none => simp [hvalue, operandOfJson] at hoperand
      | some value =>
        -- Reading resolved nothing about the operator, so it is known from the lowering alone.
        rw [hvalue] at hoperand
        obtain ⟨hknown, hsuits⟩ :=
          (exists_compared (operandOfJson_eq_ok.mp hoperand)).mp ⟨o, ho, e, he⟩
        rw [Text.isEmpty_trim] at hblank
        exact .compare hor hand hraw hcolumn hblank (operatorIs_iff.mpr ⟨op, hop, rfl, hknown⟩)
          hvalue hsuits
  | raw sql params =>
    obtain ⟨hblank, hcount, -⟩ := lowersTo_raw.mp he
    cases ofJson_eq_ok.mp hx with
    | raw hor hand hraw hparams =>
      exact .raw hor hand hraw hblank (exists_rawParams.mp ⟨params, hparams, hcount⟩)
  | any xs ih =>
    obtain ⟨hne, es, hes, -⟩ := lowersTo_any.mp he
    cases ofJson_eq_ok.mp hx with
    | any hor hxs =>
      exact .any hor ((ne_nil_of_forall₂ hxs).mpr hne) (isEntry_of_members hxs hes ih)
  | all xs ih =>
    obtain ⟨hne, es, hes, -⟩ := lowersTo_all.mp he
    cases ofJson_eq_ok.mp hx with
    | all hor hand hxs =>
      exact .all hor hand ((ne_nil_of_forall₂ hxs).mpr hne) (isEntry_of_members hxs hes ih)

end Condition

namespace Filter
open Condition
variable {t : Target} {c : Clause}

theorem compiles_iff {j : Json} {ps : Sql.ParamList} :
    (∃ text ps', (Filter.ofJson c j >>= fun f => f.compileInto t c ps) = .ok (text, ps')) ↔
      Grammar.IsFilter j := by
  simp only [bind_eq_ok, Filter.ofJson, map_eq_ok, compileInto]
  constructor
  · rintro ⟨text, ps', f, ⟨xs, hxs, rfl⟩, e, he, -⟩
    obtain ⟨items, rfl, hitems⟩ := listOfJson_eq_ok.mp hxs
    obtain ⟨es, hes, -⟩ := toExpr_eq_ok.mp he
    refine .entries (isEntry_of_members hitems hes fun x _ => ?_)
    exact isEntry_of_accepts
  · rintro ⟨hitems⟩
    have haccepted : ∀ j ∈ _, Accepts t.quote c j :=
      fun j hmem => accepts_of_isEntry (hitems j hmem)
    obtain ⟨xs, hxs, es, hes⟩ := exists_lowered haccepted
    exact ⟨_, _, _, ⟨xs, listOfJson_eq_ok.mpr ⟨_, rfl, hxs⟩, rfl⟩, _,
      toExpr_eq_ok.mpr ⟨es, hes, rfl⟩, rfl⟩

/-- Exactly the data of the grammar are read and compiled, and all else is refused with an error of
the clause. -/
theorem grammar_accepted (t : Target) (c : Clause) (ps : Sql.ParamList) (j : Json) :
    let r := Filter.ofJson c j >>= fun f => f.compileInto t c ps
    ((∃ text ps', r = .ok (text, ps')) ↔ Grammar.IsFilter j) ∧
      ∀ e, r = .error e → e.kind = c.errorKind ∧ ∃ fault, e = c.error fault := by
  refine ⟨compiles_iff, fun e he => ?_⟩
  obtain ⟨fault, rfl⟩ := failsOnly_ofJson_compileInto t c ps j e he
  exact ⟨rfl, fault, rfl⟩

/-- A list and a raw text in groups inside each other. -/
def nestedText (op : String) : String :=
  "[\x7b\"or\": [\x7b\"col\": \" a \", \"op\": \"" ++ op ++ "\", \"val\": [1, null]\x7d, "
    ++ "\x7b\"and\": [\x7b\"raw\": \"len(?) = 3\", \"params\": [\"y?\"]\x7d]\x7d]\x7d]"

theorem grammar_accepted_nested :
    (∃ j, Json.parse? (nestedText " not  in") = some j ∧ Grammar.IsFilter j) ∧
      ∃ j, Json.parse? (nestedText "<") = some j ∧ ¬ Grammar.IsFilter j := by
  let compiled (j : Json) := Filter.ofJson .groupFilter j >>= fun f =>
    f.compileInto Dialect.mysql.target .groupFilter .empty
  have haccepted : (Json.parse? (nestedText " not  in")).map (fun j => (compiled j).isOk) =
      some true := by decide +kernel
  have hrefused : (Json.parse? (nestedText "<")).map (fun j => (compiled j).isOk) =
      some false := by decide +kernel
  constructor
  · obtain ⟨j, hj, hok⟩ := Option.map_eq_some_iff.mp haccepted
    obtain ⟨hiff, -⟩ := grammar_accepted Dialect.mysql.target .groupFilter .empty j
    refine ⟨j, hj, hiff.mp ?_⟩
    cases hcompiled : compiled j with
    | ok r => exact ⟨r.1, r.2, hcompiled⟩
    | error e =>
      rw [hcompiled] at hok
      cases hok
  · obtain ⟨j, hj, hfailed⟩ := Option.map_eq_some_iff.mp hrefused
    obtain ⟨hiff, -⟩ := grammar_accepted Dialect.mysql.target .groupFilter .empty j
    refine ⟨j, hj, fun h => ?_⟩
    obtain ⟨text, ps, hcompiled⟩ := hiff.mpr h
    have hcompiled : compiled j = .ok (text, ps) := hcompiled
    rw [hcompiled] at hfailed
    cases hfailed

end Filter

end TableAccess
