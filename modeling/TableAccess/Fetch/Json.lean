import TableAccess.Condition.Json
import TableAccess.Fetch.Params
import TableAccess.Number.Reading

/-!
# Fetch parameters from untyped data

The parameters are the members of an object; members of other names are passed over, and so are
parameters that the caller may not give, whatever they hold. The rest is read in the order of
the members' names, and the first one that is malformed decides the error.
-/
namespace TableAccess.FetchParams

def notAnObject (got : Json) : Error :=
  .invalid .badFetchParams s!"fetch params must be an object, got {got.compress}"

/-- Anything but null, false, zero, an empty text or the text of zero, an empty array and an
empty object. -/
def truthy : Json → Bool
  | .array items => !items.isEmpty
  | .object members => !members.isEmpty
  | j => (Value.ofJson? j).any (!·.isEmpty)

def textList (kind : ErrorKind) (key : ParamKey) : Json → Except Error (List String)
  | .array items =>
    items.mapM fun j =>
      match j with
      | .string s => .ok s
      | j => .error (.invalid kind s!"entries of '{key.name}' must be strings, got {j.compress}")
  | j => .error (.invalid kind s!"expected a list for '{key.name}', got {j.compress}")

def maxLimit : Nat := 2 ^ 63 - 1

def limitOfNat? (n : Nat) : Option Nat := if n ≤ maxLimit then some n else none

def limitOfFloat? (x : Binary64) : Option Nat :=
  if x.isFinite && (x.isZero || !x.negative) then limitOfNat? x.truncate.toNat else none

/-- A number, or the text of one between blanks, as a limit. A text that is no word of 64 bits is
read as a floating-point number. -/
def limit? : Json → Option Nat
  | .int i => if 0 ≤ i then limitOfNat? i.toNat else none
  | .float x => limitOfFloat? x.val
  | .string s =>
    let s := Text.trim s
    match Text.readWord? s with
    | some n => limitOfNat? n
    | none => (Binary64.ofText? s).bind limitOfFloat?
  | _ => none

def limitOfJson (key : ParamKey) (j : Json) : Except Error Nat :=
  match limit? j with
  | some n => .ok n
  | none =>
    .error (.invalid .badLimitParam
      s!"expected a non-negative integer for '{key.name}', got {j.compress}")

/-- The parameters that untyped data describe, without the disallowed ones. -/
def ofJson (disallowed : List ParamKey) : Json → Except Error FetchParams
  | .object members => do
    let given (key : ParamKey) : Option Json :=
      if disallowed.contains key then none else Json.find? key.name members
    let columns ← (given .columns).mapM (textList .badColsParam .columns)
    let distinct := (given .distinct).map truthy
    let grouping ← (given .grouping).mapM (textList .badGroupByParam .grouping)
    let groupFilter ← (given .groupFilter).mapM (Filter.ofJson .groupFilter)
    let offset ← (given .offset).mapM (limitOfJson .offset)
    let limit ← (given .limit).mapM (limitOfJson .limit)
    let ordering ← (given .ordering).mapM (textList .badOrderByParam .ordering)
    let rowFilter ← (given .rowFilter).mapM (Filter.ofJson .rowFilter)
    return ⟨distinct, columns, rowFilter, groupFilter, grouping, ordering, limit, offset⟩
  | j => .error (notAnObject j)

end TableAccess.FetchParams
