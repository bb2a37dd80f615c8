/-!
# Decimal integers in text

An optional sign and one or more ASCII digits, of any length. `readNatural?` takes no minus
sign, not even before a zero.
-/
namespace TableAccess.Text

def digit? (c : Char) : Option Nat :=
  if '0' ≤ c ∧ c ≤ '9' then some (c.toNat - '0'.toNat) else none

/-- The number that a row of digits denotes, most significant digit first. -/
def ofDigits (ds : List Nat) : Nat := ds.foldl (fun n d => n * 10 + d) 0

def readDigits? (cs : List Char) : Option Nat :=
  match cs with
  | [] => none
  | _ => (cs.mapM digit?).map ofDigits

/-- An optional plus sign and digits. -/
def readNatural? (s : String) : Option Nat :=
  match s.toList with
  | '+' :: cs => readDigits? cs
  | cs => readDigits? cs

/-- A natural number that fits a word of 64 bits. -/
def readWord? (s : String) : Option Nat := (readNatural? s).filter (· < UInt64.size)

def readInteger? (s : String) : Option Int :=
  match s.toList with
  | '-' :: cs => (readDigits? cs).map fun n => -(n : Int)
  | '+' :: cs => (readDigits? cs).map Int.ofNat
  | cs => (readDigits? cs).map Int.ofNat

/-- An integer of 64 bits with its sign; none if the number is out of range. -/
def readInt64? (s : String) : Option Int64 :=
  (readInteger? s).bind fun i =>
    if Int64.minValue.toInt ≤ i ∧ i ≤ Int64.maxValue.toInt then some (Int64.ofInt i) else none

end TableAccess.Text
