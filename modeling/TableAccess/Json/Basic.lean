import TableAccess.Json.Document
import TableAccess.Number.Layout

/-!
# Untyped data

The meaning of a document that no type describes: a tree whose objects have each key once, in
the order of the keys' characters, the last of repeated members winning. `Json.compress` prints
a tree without blanks.
-/
namespace TableAccess

/-- Untyped data. -/
inductive Json where
  | null
  | bool (b : Bool)
  | int (i : Json.Integer)
  | float (x : Json.FiniteFloat)
  | string (s : String)
  | array (items : List Json)
  | object (members : List (String × Json))
  deriving Inhabited

namespace Json

/-- Puts a member at its place in the order of keys, in the place of one with the same key. -/
def insertMember {α : Type} (key : String) (value : α) : List (String × α) → List (String × α)
  | [] => [(key, value)]
  | (k, v) :: rest =>
    if key < k then (key, value) :: (k, v) :: rest
    else if key = k then (key, value) :: rest
    else (k, v) :: insertMember key value rest

/-- The members in the order of keys, the last one of each key. -/
def sortMembers {α : Type} (members : List (String × α)) : List (String × α) :=
  members.foldl (fun acc m => insertMember m.1 m.2 acc) []

def ofMembers (members : List (String × Json)) : Json := .object (sortMembers members)

def find? (key : String) (members : List (String × Json)) : Option Json :=
  (members.find? (·.1 == key)).map (·.2)

def ofNumeric : Numeric → Json
  | .int i => .int i
  | .float x => .float x

mutual

/-- The meaning of a document with at most `depth` arrays and objects inside each other. -/
def ofDocument? : Nat → Document → Option Json
  | _, .null => some .null
  | _, .bool b => some (.bool b)
  | _, .number l => l.value?.map ofNumeric
  | _, .string s => s.map .string
  | 0, .array _ => none
  | depth + 1, .array items => (ofItems? depth items).map .array
  | 0, .object _ => none
  | depth + 1, .object members => (ofFields? depth members).map ofMembers

def ofItems? : Nat → List Document → Option (List Json)
  | _, [] => some []
  | depth, d :: ds => do
    let x ← ofDocument? depth d
    let xs ← ofItems? depth ds
    return x :: xs

def ofFields? : Nat → List (Option String × Document) → Option (List (String × Json))
  | _, [] => some []
  | depth, (key, d) :: rest => do
    let key ← key
    let x ← ofDocument? depth d
    let xs ← ofFields? depth rest
    return (key, x) :: xs

end

def maxDepth : Nat := 127

def parse? (s : String) : Option Json := (Document.read? s).bind (ofDocument? maxDepth)

/-- One character of a printed string: only quotes, backslashes and controls are escaped. -/
def escapeChar (c : Char) : List Char :=
  match c with
  | '"' => ['\\', '"']
  | '\\' => ['\\', '\\']
  | '\n' => ['\\', 'n']
  | '\r' => ['\\', 'r']
  | '\t' => ['\\', 't']
  | c =>
    if c.toNat = 8 then ['\\', 'b']
    else if c.toNat = 12 then ['\\', 'f']
    else if c.toNat < 0x20 then
      ['\\', 'u', '0', '0', Nat.digitChar (c.toNat / 16), Nat.digitChar (c.toNat % 16)]
    else [c]

def quote (s : String) : String :=
  String.ofList ('"' :: s.toList.flatMap escapeChar ++ ['"'])

mutual

def compress : Json → String
  | .null => "null"
  | .bool b => if b then "true" else "false"
  | .int i => toString i.val
  | .float x => Binary64.documentLayout.finite x.val
  | .string s => quote s
  | .array items => "[" ++ ",".intercalate (compressItems items) ++ "]"
  | .object members => "\x7b" ++ ",".intercalate (compressMembers members) ++ "\x7d"

def compressItems : List Json → List String
  | [] => []
  | x :: xs => compress x :: compressItems xs

def compressMembers : List (String × Json) → List String
  | [] => []
  | (k, x) :: rest => (quote k ++ ":" ++ compress x) :: compressMembers rest

end

end Json

end TableAccess
