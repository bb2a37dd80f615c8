import TableAccess.Json.Basic
import TableAccess.Text.Blank
import TableAccess.Text.Escaped

/-!
# Values

What can be bound to a placeholder or stand in a row: null, a truth value, an integer of 64
bits, a floating-point number or a text.
-/
namespace TableAccess

/-- A value of a column. -/
inductive Value where
  | null
  | bool (b : Bool)
  | int (i : Int64)
  | float (x : Binary64)
  | text (s : String)
  deriving DecidableEq

inductive BindKind where
  | null
  | bool
  | int
  | str
  deriving DecidableEq

namespace BindKind

def name : BindKind → String
  | .null => "null"
  | .bool => "bool"
  | .int => "int"
  | .str => "str"

end BindKind

namespace Value

/-- Floating-point numbers are bound as text. -/
def bindKind : Value → BindKind
  | .null => .null
  | .bool _ => .bool
  | .int _ => .int
  | .float _ => .str
  | .text _ => .str

/-- What counts as nothing in a row to be written: null, false, zero, no text and the text of
zero. -/
def isEmpty : Value → Bool
  | .null => true
  | .bool b => !b
  | .int i => i == 0
  | .float x => x.isZero
  | .text s => s == "" || s == "0"

def isNull : Value → Bool
  | .null => true
  | _ => false

def isNumeric : Value → Bool
  | .int _ => true
  | .float _ => true
  | _ => false

/-- The value as an integer: an integer, a whole number, or a text that is an integer between
blanks. A whole number out of range gives the nearest integer. -/
def asInt64? : Value → Option Int64
  | .int i => some i
  | .float x => if x.isWhole then some x.toInt64 else none
  | .text s => Text.readInt64? (Text.trim s)
  | _ => none

def asText? : Value → Option String
  | .text s => some s
  | _ => none

/-- The text that stands for a value as a key. A whole number has the text of the integer. -/
def keyText : Value → String
  | .null => ""
  | .bool b => if b then "1" else "0"
  | .int i => toString i.toInt
  | .float x => if x.isWhole then toString x.toInt64.toInt else x.toText
  | .text s => s

def toText : Value → String
  | .null => "NULL"
  | .bool b => if b then "true" else "false"
  | .int i => toString i.toInt
  | .float x => x.toText
  | .text s => s

def diagnostic : Value → String
  | .null => "Null"
  | .bool b => if b then "Bool(true)" else "Bool(false)"
  | .int i => "Int(" ++ toString i.toInt ++ ")"
  | .float x => "Float(" ++ Binary64.diagnosticLayout.write x ++ ")"
  | .text s => "Text(" ++ Text.quoted s ++ ")"

def diagnosticOption : Option Value → String
  | none => "None"
  | some v => "Some(" ++ v.diagnostic ++ ")"

/-- Equality as data: numbers of one type are compared as numbers, and an integer is never
equal to a floating-point number. -/
def equal : Value → Value → Bool
  | .float x, .float y => x.equal y
  | v, w => v == w

/-- The number that an integer of any size becomes: an integer if it fits 64 bits, and
otherwise the nearest floating-point number. -/
def ofInteger (i : Int) : Value :=
  if Int64.minValue.toInt ≤ i ∧ i ≤ Int64.maxValue.toInt then .int (Int64.ofInt i)
  else .float (Binary64.ofInt i)

def ofJson? : Json → Option Value
  | .null => some .null
  | .bool b => some (.bool b)
  | .int i => some (ofInteger i.val)
  | .float x => some (.float x.val)
  | .string s => some (.text s)
  | .array _ => none
  | .object _ => none

/-- What is not finite has no form of its own. -/
def toJson : Value → Json
  | .null => .null
  | .bool b => .bool b
  | .int i => .int (.ofInt64 i)
  | .float x => if h : x.isFinite then .float ⟨x, h⟩ else .null
  | .text s => .string s

def ofDocument? : Json.Document → Option Value
  | .null => some .null
  | .bool b => some (.bool b)
  | .number l =>
    l.value?.map fun n =>
      match n with
      | .int i => ofInteger i.val
      | .float x => .float x.val
  | .string s => s.map .text
  | .array _ => none
  | .object _ => none

def parse? (s : String) : Option Value := (Json.Document.read? s).bind ofDocument?

end Value

end TableAccess
