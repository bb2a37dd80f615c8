import TableAccess.Condition.Json
import TableAccess.Proofs.Lowering

/-!
# How filters fail

Reading a filter from untyped data and making an expression of it fail with errors of the filter's
clause and with no others.
-/
namespace TableAccess

/-- Whatever fails does so with an error of the clause. -/
def Clause.FailsOnly {α : Type} (c : Clause) (r : Except Error α) : Prop :=
  ∀ e, r = .error e → ∃ fault, e = c.error fault

namespace Clause.FailsOnly
variable {α β : Type} {c : Clause}

theorem ok (a : α) : c.FailsOnly (.ok a) := by
  intro e h
  cases h

theorem error (fault : FilterFault) : c.FailsOnly (.error (c.error fault) : Except Error α) := by
  intro e h
  cases h
  exact ⟨fault, rfl⟩

theorem bind {x : Except Error α} {f : α → Except Error β} (hx : c.FailsOnly x)
    (hf : ∀ a, c.FailsOnly (f a)) : c.FailsOnly (x >>= f) := by
  intro e h
  rcases bind_eq_error.mp h with h | ⟨a, -, h⟩
  · exact hx e h
  · exact hf a e h

theorem map {x : Except Error α} (hx : c.FailsOnly x) (f : α → β) : c.FailsOnly (x.map f) := by
  cases x with
  | ok a => exact ok (f a)
  | error e =>
    intro e' h
    cases h
    exact hx e rfl

theorem mapM {f : α → Except Error β} {xs : List α} (hf : ∀ x, c.FailsOnly (f x)) :
    c.FailsOnly (xs.mapM f) := by
  intro e h
  obtain ⟨x, -, hx⟩ := exists_mem_of_mapM_eq_error h
  exact hf x e hx

end Clause.FailsOnly

namespace Condition
open Clause
variable {quote : String → String} {c : Clause}

theorem failsOnly_scalars (fault : FilterFault) (items : List Json) :
    c.FailsOnly (scalars (c.error fault) items) := by
  refine .mapM fun j => ?_
  split
  · exact .ok _
  · exact .error fault

theorem failsOnly_rawParams (params : Option Json) : c.FailsOnly (rawParams c params) := by
  unfold rawParams
  split
  · exact .ok _
  · exact .ok _
  · exact failsOnly_scalars _ _
  · exact .error _

theorem failsOnly_rawOfJson (members : List (String × Json)) (sql : Json) :
    c.FailsOnly (rawOfJson c members sql) := by
  unfold rawOfJson
  split
  · exact (failsOnly_rawParams _).map _
  · exact .error _

theorem failsOnly_operatorOfJson (j : Option Json) : c.FailsOnly (operatorOfJson c j) := by
  unfold operatorOfJson
  split
  · exact .ok _
  · exact .ok _
  · exact .ok _
  · exact .error _

theorem failsOnly_operandOfJson (column : String) (j : Option Json) :
    c.FailsOnly (operandOfJson c column j) := by
  unfold operandOfJson
  split
  · exact .error _
  · exact (failsOnly_scalars _ _).map _
  · split
    · exact .ok _
    · exact .error _

theorem failsOnly_compareOfJson (members : List (String × Json)) :
    c.FailsOnly (compareOfJson c members) := by
  unfold compareOfJson
  split
  · exact .error _
  · refine (failsOnly_operatorOfJson _).bind fun op => ?_
    exact (failsOnly_operandOfJson _ _).bind fun operand => .ok _
  · exact .error _

mutual

theorem failsOnly_ofJson : ∀ j : Json, c.FailsOnly (ofJson c j)
  | .object members => by
    rw [ofJson]
    split
    · rename_i hor
      exact (failsOnly_groupUnder hor).map _
    · split
      · rename_i hand
        exact (failsOnly_groupUnder hand).map _
      · split
        · exact failsOnly_rawOfJson _ _
        · exact failsOnly_compareOfJson _
  | .array _ | .null | .bool _ | .int _ | .float _ | .string _ => .error _

theorem failsOnly_groupUnder {key : String} : ∀ {members : List (String × Json)}
    {group : Except Error (List Condition)}, groupUnder c key members = some group →
      c.FailsOnly group
  | (k, j) :: rest, group, h => by
    rw [groupUnder] at h
    split at h
    · cases h
      exact failsOnly_listOfJson j
    · exact failsOnly_groupUnder h

theorem failsOnly_listOfJson : ∀ j : Json, c.FailsOnly (listOfJson c j)
  | .array items => failsOnly_entriesOfJson items
  | .object _ | .null | .bool _ | .int _ | .float _ | .string _ => .error _

theorem failsOnly_entriesOfJson : ∀ items : List Json, c.FailsOnly (entriesOfJson c items)
  | [] => .ok []
  | j :: items => (failsOnly_ofJson j).bind fun x =>
      (failsOnly_entriesOfJson items).bind fun xs => .ok (x :: xs)

end

theorem failsOnly_literal (column : String) (v : Value) :
    c.FailsOnly (literal quote c column v) := by
  unfold literal
  split
  · exact .ok _
  · exact .ok _
  · exact .ok _
  · split
    · exact .ok _
    · exact .error _
  · exact .ok _

theorem failsOnly_lowerOperand (column : String) (o : Operator) (operand : Operand) :
    c.FailsOnly (lowerOperand quote c column o operand) := by
  have hmembers : ∀ vs negated, c.FailsOnly (membership quote c column vs negated) :=
    fun vs negated => (FailsOnly.mapM (failsOnly_literal column)).map _
  cases operand with
  | list vs =>
    rw [lowerOperand]
    split
    · exact hmembers _ _
    · exact .error _
  | scalar v =>
    rw [lowerOperand]
    split
    · exact hmembers _ _
    · split
      · split
        · exact .ok _
        · exact .error _
      · exact .ok _

theorem failsOnly_lowerCompare (column : String) (op : Option String) (operand : Operand) :
    c.FailsOnly (lowerCompare quote c column op operand) := by
  unfold lowerCompare
  dsimp only
  split
  · exact .error _
  · refine FailsOnly.bind ?_ fun o => failsOnly_lowerOperand _ o operand
    unfold resolveOperator
    split
    · split
      · exact .ok _
      · exact .ok _
    · split
      · exact .ok _
      · exact .error _

theorem failsOnly_lowerRaw (sql : String) (params : List Value) :
    c.FailsOnly (lowerRaw c sql params) := by
  unfold lowerRaw
  dsimp only
  split_ifs
  · exact .error _
  · exact .error _
  · exact .ok _

theorem failsOnly_lowerAll_of_forall {xs : List Condition}
    (h : ∀ x ∈ xs, c.FailsOnly (lower quote c x)) : c.FailsOnly (lowerAll quote c xs) := by
  induction xs with
  | nil => exact .ok []
  | cons x xs ih =>
    obtain ⟨hx, hxs⟩ := List.forall_mem_cons.mp h
    rw [lowerAll]
    exact hx.bind fun e => (ih hxs).bind fun es => .ok (e :: es)

theorem failsOnly_lower (x : Condition) : c.FailsOnly (lower quote c x) := by
  induction x using memberInduction with
  | compare column op operand =>
    rw [lower]
    exact failsOnly_lowerCompare column op operand
  | raw sql params =>
    rw [lower]
    exact failsOnly_lowerRaw sql params
  | any xs ih =>
    rw [lower]
    split_ifs
    · exact .error _
    · exact (failsOnly_lowerAll_of_forall ih).map _
  | all xs ih =>
    rw [lower]
    split_ifs
    · exact .error _
    · exact (failsOnly_lowerAll_of_forall ih).map _

theorem failsOnly_lowerAll (xs : List Condition) : c.FailsOnly (lowerAll quote c xs) :=
  failsOnly_lowerAll_of_forall fun x _ => failsOnly_lower x

end Condition

/-- The filter's own errors are all that reading and compiling can end in. -/
theorem Filter.failsOnly_ofJson_compileInto (t : Target) (c : Clause) (ps : Sql.ParamList)
    (j : Json) : c.FailsOnly (Filter.ofJson c j >>= fun f => f.compileInto t c ps) := by
  refine ((Condition.failsOnly_listOfJson j).map _).bind fun f => ?_
  exact ((Condition.failsOnly_lowerAll f.conditions).map _).map _

end TableAccess
