import TableAccess.Condition.Json
import TableAccess.Proofs.Lowering

/-!
# What entries of filters are read as

The reader of filters stops at the first key that an entry has and at the first fault. `IsReadAs`
has one case for each form of an entry and says all that was found in it when a condition came out.
-/
namespace TableAccess

namespace Condition
open Json
variable {c : Clause}

theorem scalars_eq_ok {e : Error} {items : List Json} {vs : List Value} :
    scalars e items = .ok vs ↔ List.Forall₂ (fun j v => Value.ofJson? j = some v) items vs := by
  rw [scalars, mapM_eq_ok]
  constructor
  · intro h
    refine h.imp fun j v hv => ?_
    split at hv
    · rename_i hj
      cases hv
      exact hj
    · cases hv
  · intro h
    refine h.imp fun j v hv => ?_
    rw [hv]

/-- What the right side of an entry is read as. -/
inductive IsOperand : Json → Operand → Prop
  | list {items : List Json} {vs : List Value}
      (h : List.Forall₂ (fun j v => Value.ofJson? j = some v) items vs) :
    IsOperand (.array items) (.list vs)
  | scalar {j : Json} {v : Value} (h : Value.ofJson? j = some v) : IsOperand j (.scalar v)

theorem operandOfJson_eq_ok {column : String} {j : Json} {operand : Operand} :
    operandOfJson c column (some j) = .ok operand ↔ IsOperand j operand := by
  constructor
  · intro h
    cases j with
    | array items =>
      obtain ⟨vs, hvs, rfl⟩ := map_eq_ok.mp h
      exact .list (scalars_eq_ok.mp hvs)
    | object => cases h
    | _ =>
      cases h
      exact .scalar rfl
  · intro h
    cases h with
    | list hvs => simp [operandOfJson, scalars_eq_ok.mpr hvs, Except.map]
    | scalar hv =>
      cases j with
      | array | object => cases hv
      | _ =>
        cases hv
        rfl

theorem groupUnder_eq (key : String) (members : List (String × Json)) :
    groupUnder c key members = (find? key members).map (listOfJson c) := by
  induction members with
  | nil => rfl
  | cons m members ih =>
    rw [groupUnder, find?, List.find?_cons]
    split
    · rename_i h
      simp [h]
    · rename_i h
      simp [h, ih, find?]

theorem entriesOfJson_eq_ok {items : List Json} {xs : List Condition} :
    entriesOfJson c items = .ok xs ↔ List.Forall₂ (fun j x => ofJson c j = .ok x) items xs := by
  induction items generalizing xs with
  | nil => simp [entriesOfJson, eq_comm]
  | cons j items ih =>
    simp only [entriesOfJson, bind_eq_ok, pure, Except.pure, Except.ok.injEq,
      List.forall₂_cons_left_iff]
    constructor
    · rintro ⟨x, hx, xs', hxs, rfl⟩
      exact ⟨x, xs', hx, ih.mp hxs, rfl⟩
    · rintro ⟨x, xs', hx, hxs, rfl⟩
      exact ⟨x, hx, xs', ih.mpr hxs, rfl⟩

theorem listOfJson_eq_ok {j : Json} {xs : List Condition} :
    listOfJson c j = .ok xs ↔
      ∃ items, j = .array items ∧ List.Forall₂ (fun j x => ofJson c j = .ok x) items xs := by
  cases j <;> simp [listOfJson, entriesOfJson_eq_ok]

/-- What an entry is read as. -/
inductive IsReadAs (c : Clause) : Json → Condition → Prop
  | any {members : List (String × Json)} {items : List Json} {xs : List Condition}
      (hor : find? "or" members = some (.array items))
      (h : List.Forall₂ (fun j x => ofJson c j = .ok x) items xs) :
    IsReadAs c (.object members) (.any xs)
  | all {members : List (String × Json)} {items : List Json} {xs : List Condition}
      (hor : find? "or" members = none) (hand : find? "and" members = some (.array items))
      (h : List.Forall₂ (fun j x => ofJson c j = .ok x) items xs) :
    IsReadAs c (.object members) (.all xs)
  | raw {members : List (String × Json)} {sql : String} {params : List Value}
      (hor : find? "or" members = none) (hand : find? "and" members = none)
      (hraw : find? "raw" members = some (.string sql))
      (hparams : rawParams c (find? "params" members) = .ok params) :
    IsReadAs c (.object members) (.raw sql params)
  | compare {members : List (String × Json)} {column : String} {op : Option String}
      {operand : Operand} (hor : find? "or" members = none) (hand : find? "and" members = none)
      (hraw : find? "raw" members = none)
      (hcolumn : either "col" "column" members = some (.string column))
      (hop : operatorOfJson c (either "op" "operator" members) = .ok op)
      (hoperand : operandOfJson c column (either "val" "value" members) = .ok operand) :
    IsReadAs c (.object members) (.compare column op operand)

theorem ofJson_eq_ok {j : Json} {x : Condition} : ofJson c j = .ok x ↔ IsReadAs c j x := by
  constructor
  · intro h
    cases j with
    | object members =>
      simp only [ofJson, groupUnder_eq] at h
      cases hor : find? "or" members with
      | some group =>
        simp only [hor, Option.map_some] at h
        obtain ⟨xs, hxs, rfl⟩ := map_eq_ok.mp h
        obtain ⟨items, rfl, hitems⟩ := listOfJson_eq_ok.mp hxs
        exact .any hor hitems
      | none =>
        cases hand : find? "and" members with
        | some group =>
          simp only [hor, hand, Option.map_some, Option.map_none] at h
          obtain ⟨xs, hxs, rfl⟩ := map_eq_ok.mp h
          obtain ⟨items, rfl, hitems⟩ := listOfJson_eq_ok.mp hxs
          exact .all hor hand hitems
        | none =>
          cases hraw : find? "raw" members with
          | some sql =>
            simp only [hor, hand, hraw, Option.map_none] at h
            cases sql with
            | string sql =>
              obtain ⟨params, hparams, rfl⟩ := map_eq_ok.mp h
              exact .raw hor hand hraw hparams
            | _ => cases h
          | none =>
            simp only [hor, hand, hraw, Option.map_none, compareOfJson] at h
            split at h
            · cases h
            · rename_i column hcolumn
              obtain ⟨op, hop, hrest⟩ := bind_eq_ok.mp h
              obtain ⟨operand, hoperand, hx⟩ := bind_eq_ok.mp hrest
              cases hx
              exact .compare hor hand hraw hcolumn hop hoperand
            · cases h
    | _ => cases h
  · intro h
    cases h with
    | any hor hitems =>
      simp [ofJson, groupUnder_eq, hor, map_eq_ok, listOfJson_eq_ok, hitems]
    | all hor hand hitems =>
      simp [ofJson, groupUnder_eq, hor, hand, map_eq_ok, listOfJson_eq_ok, hitems]
    | raw hor hand hraw hparams =>
      simp [ofJson, groupUnder_eq, hor, hand, hraw, rawOfJson, hparams, Except.map]
    | compare hor hand hraw hcolumn hop hoperand =>
      simp [ofJson, groupUnder_eq, hor, hand, hraw, compareOfJson, hcolumn, hop, hoperand, bind,
        Except.bind, pure, Except.pure]

end Condition

end TableAccess
