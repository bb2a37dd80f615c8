import TableAccess.Number.Binary64
import TableAccess.Text.Integer

/-!
# Reading decimal text as a floating-point number

The text is an optional sign and then either a word for infinity or for the undefined result
in any case, or digits with at most one point among or around them and an optional exponent.
The number is the one nearest to the exact decimal.
-/
namespace TableAccess.Number

/-- A decimal numeral split at its point, with its power of ten. -/
structure Numeral where
  whole : List Nat
  fraction : List Nat
  exponent : Int

def takeDigits : List Char → List Nat × List Char
  | [] => ([], [])
  | c :: cs =>
    match Text.digit? c with
    | some d =>
      let (ds, rest) := takeDigits cs
      (d :: ds, rest)
    | none => ([], c :: cs)

def readExponent? (cs : List Char) : Option Int :=
  match cs with
  | '-' :: ds => (Text.readDigits? ds).map fun n => -(n : Int)
  | '+' :: ds => (Text.readDigits? ds).map Int.ofNat
  | ds => (Text.readDigits? ds).map Int.ofNat

/-- The numeral that makes up a whole text: a digit on one side of the point at least. -/
def readNumeral? (cs : List Char) : Option Numeral :=
  let (whole, rest) := takeDigits cs
  let (fraction, rest) :=
    match rest with
    | '.' :: r => takeDigits r
    | r => ([], r)
  if whole.isEmpty && fraction.isEmpty then none
  else
    match rest with
    | [] => some ⟨whole, fraction, 0⟩
    | c :: r => if c == 'e' || c == 'E' then (readExponent? r).map (⟨whole, fraction, ·⟩) else none

namespace Numeral

def digits (n : Numeral) : Nat := Text.ofDigits (n.whole ++ n.fraction)

def scale (n : Numeral) : Int := n.exponent - n.fraction.length

/-- The numeral as a ratio. Beyond the powers of ten that any format reaches, on either side, it
is written down as a number that rounds to the same: 10 ^ 400 or zero. -/
def ratio (n : Numeral) : Nat × Nat :=
  let size : Int := n.scale + (n.whole ++ n.fraction).length
  let e := n.scale
  if n.digits = 0 then (0, 1)
  else if e > 400 then (10 ^ 400, 1)
  else if size < -400 then (0, 1)
  else (n.digits * 10 ^ e.toNat, 10 ^ (-e).toNat)

end Numeral

def lowerAscii (c : Char) : Char :=
  if 'A' ≤ c ∧ c ≤ 'Z' then Char.ofNat (c.toNat + 32) else c

/-- Reads an unsigned text, rounding its ratio with `round`. -/
def readMagnitude? (round : Bool → Nat → Nat → Binary64) (negative : Bool) (cs : List Char) :
    Option Binary64 :=
  let word := String.ofList (cs.map lowerAscii)
  if word = "inf" ∨ word = "infinity" then some (Binary64.infinity negative)
  else if word = "nan" then some { Binary64.nan with negative := negative }
  else (readNumeral? cs).map fun n => round negative n.ratio.1 n.ratio.2

def readSigned? (round : Bool → Nat → Nat → Binary64) (s : String) : Option Binary64 :=
  match s.toList with
  | '-' :: cs => readMagnitude? round true cs
  | '+' :: cs => readMagnitude? round false cs
  | cs => readMagnitude? round false cs

end TableAccess.Number

namespace TableAccess.Binary64
open TableAccess.Number

def ofText? (s : String) : Option Binary64 := readSigned? ofRatio s

def ofTextSingle? (s : String) : Option Binary64 := readSigned? ofRatioSingle s

end TableAccess.Binary64
