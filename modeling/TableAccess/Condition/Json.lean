import TableAccess.Condition.Basic

/-!
# Filters from untyped data

A filter is an array of entries. An entry is an object that holds, looked for in this order, a
group under `or` or `and`, a text under `raw`, or a column with an optional operator and a
value.
-/
namespace TableAccess

namespace Condition

/-- The single values of an array, or a failure for a member that is none. -/
def scalars (refused : Error) (items : List Json) : Except Error (List Value) :=
  items.mapM fun j =>
    match Value.ofJson? j with
    | some v => .ok v
    | none => .error refused

def rawParams (c : Clause) : Option Json → Except Error (List Value)
  | none => .ok []
  | some .null => .ok []
  | some (.array items) => scalars (c.error .rawParamNotScalar) items
  | some _ => .error (c.error .rawParamsNotAList)

def rawOfJson (c : Clause) (members : List (String × Json)) : Json → Except Error Condition
  | .string sql => (rawParams c (Json.find? "params" members)).map (.raw sql)
  | _ => .error (c.error .rawNotText)

def operatorOfJson (c : Clause) : Option Json → Except Error (Option String)
  | none => .ok none
  | some .null => .ok none
  | some (.string s) => .ok (some s)
  | some _ => .error (c.error .operatorNotText)

def operandOfJson (c : Clause) (column : String) : Option Json → Except Error Operand
  | none => .error (c.error (.noValue column))
  | some (.array items) => (scalars (c.error (.memberNotScalar column)) items).map .list
  | some j =>
    match Value.ofJson? j with
    | some v => .ok (.scalar v)
    | none => .error (c.error (.valueNotScalarOrList column))

/-- The member under the first of two keys, or else under the second. -/
def either (first second : String) (members : List (String × Json)) : Option Json :=
  (Json.find? first members).or (Json.find? second members)

def compareOfJson (c : Clause) (members : List (String × Json)) : Except Error Condition :=
  match either "col" "column" members with
  | none => .error (c.error (.noColumn (.object members)))
  | some (.string column) => do
    let op ← operatorOfJson c (either "op" "operator" members)
    let operand ← operandOfJson c column (either "val" "value" members)
    return .compare column op operand
  | some _ => .error (c.error .columnNotText)

mutual

def ofJson (c : Clause) : Json → Except Error Condition
  | .object members =>
    match groupUnder c "or" members with
    | some group => group.map .any
    | none =>
      match groupUnder c "and" members with
      | some group => group.map .all
      | none =>
        match Json.find? "raw" members with
        | some sql => rawOfJson c members sql
        | none => compareOfJson c members
  | j => .error (c.error (.notAnObject j))

def groupUnder (c : Clause) (key : String) :
    List (String × Json) → Option (Except Error (List Condition))
  | [] => none
  | (k, j) :: rest => if k == key then some (listOfJson c j) else groupUnder c key rest

def listOfJson (c : Clause) : Json → Except Error (List Condition)
  | .array items => entriesOfJson c items
  | j => .error (c.error (.notAList j))

/-- The conditions of entries, up to the first one that is refused. -/
def entriesOfJson (c : Clause) : List Json → Except Error (List Condition)
  | [] => .ok []
  | j :: js => do
    let condition ← ofJson c j
    let conditions ← entriesOfJson c js
    return condition :: conditions

end

end Condition

def Filter.ofJson (c : Clause) (j : Json) : Except Error Filter :=
  (Condition.listOfJson c j).map Filter.mk

end TableAccess
