import TableAccess.Json.Basic

/-!
# Records in documents

A record of named fields is written as an object, where unknown members are passed over and a
known one may not be repeated, or as an array of its fields in order, where fields at the end
may be missing. `Document.fields?` gives what is written for each name.
-/
namespace TableAccess.Json.Document

/-- The member of one name; the outer none if it is repeated. -/
def member? (name : String) (members : List (Option String × Document)) :
    Option (Option Document) :=
  match members.filter (·.1 == some name) with
  | [] => some none
  | [m] => some (some m.2)
  | _ => none

/-- What is written for each of the names, in their order. -/
def fields? (names : List String) : Document → Option (List (Option Document))
  | .object members =>
    if members.all (·.1.isSome) then names.mapM (member? · members) else none
  | .array items =>
    if items.length ≤ names.length then
      some (items.map some ++ List.replicate (names.length - items.length) none)
    else none
  | _ => none

def text? : Document → Option String
  | .string s => s
  | _ => none

def bool? : Document → Option Bool
  | .bool b => some b
  | _ => none

def uint32? : Document → Option UInt32
  | .number l =>
    match l.value? with
    | some (.int i) => if 0 ≤ i.val ∧ i.val < 2 ^ 32 then some (UInt32.ofNat i.val.toNat) else none
    | _ => none
  | _ => none

def nullable? {α : Type} (read : Document → Option α) : Document → Option (Option α)
  | .null => some none
  | d => (read d).map some

def list? {α : Type} (read : Document → Option α) : Document → Option (List α)
  | .array items => items.mapM read
  | _ => none

/-- A field that takes a default when nothing is written for it. -/
def orElse? {α : Type} (default : α) (read : Document → Option α) : Option Document → Option α
  | none => some default
  | some d => read d

end TableAccess.Json.Document
