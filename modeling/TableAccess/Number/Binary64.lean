import TableAccess.Number.Rounding

/-!
# Binary floating-point numbers of 64 bits

A number is given by the three fields of its encoding, so that every value of the type is one.
The magnitude of a finite number is `units` multiples of `2 ^ -1074`, a natural number, and
what is asked of a number here (is it whole, what integer is it, is it equal to another) is
answered on that natural number without rounding.
-/
namespace TableAccess

/-- A floating-point number: sign, biased exponent and fraction. -/
structure Binary64 where
  negative : Bool
  exponent : Fin 2048
  fraction : Fin (2 ^ 52)
  deriving DecidableEq

namespace Binary64
open TableAccess.Number

/-- The number with the given sign and the magnitude at an index, infinity at the most. -/
def ofIndex (negative : Bool) (index : Nat) : Binary64 :=
  let i := min index BinaryFormat.double.infinityIndex
  ⟨negative, Fin.ofNat 2048 (i / 2 ^ 52), Fin.ofNat (2 ^ 52) (i % 2 ^ 52)⟩

def index (x : Binary64) : Nat := x.exponent.val * 2 ^ 52 + x.fraction.val

/-- The magnitude of a finite number, in multiples of `2 ^ -1074`. -/
def units (x : Binary64) : Nat := BinaryFormat.double.units x.index

def one : Nat := 2 ^ 1074

def isFinite (x : Binary64) : Bool := x.exponent.val != 2047

def isNaN (x : Binary64) : Bool := x.exponent.val == 2047 && x.fraction.val != 0

def isZero (x : Binary64) : Bool := x.exponent.val == 0 && x.fraction.val == 0

def zero : Binary64 := ofIndex false 0

def infinity (negative : Bool) : Binary64 := ofIndex negative BinaryFormat.double.infinityIndex

def nan : Binary64 := ⟨false, 2047, Fin.ofNat (2 ^ 52) (2 ^ 51)⟩

/-- The number nearest to a ratio; infinity if the ratio is too large. -/
def ofRatio (negative : Bool) (num den : Nat) : Binary64 :=
  ofIndex negative (BinaryFormat.double.index num den)

def ofInt (i : Int) : Binary64 := ofRatio (i < 0) i.natAbs 1

/-- A ratio rounded to 32 bits, as a number of 64 bits. -/
def ofRatioSingle (negative : Bool) (num den : Nat) : Binary64 :=
  let i := BinaryFormat.single.index num den
  if i = BinaryFormat.single.infinityIndex then infinity negative
  else ofRatio negative (BinaryFormat.single.units i) (2 ^ BinaryFormat.single.unitBits)

def mul (x y : Binary64) : Binary64 :=
  ofRatio (x.negative != y.negative) (x.units * y.units) (one * one)

def div (x y : Binary64) : Binary64 :=
  ofRatio (x.negative != y.negative) x.units y.units

def neg (x : Binary64) : Binary64 := { x with negative := !x.negative }

/-- Equality as numbers: the zeros are equal and an undefined result is equal to nothing. -/
def equal (x y : Binary64) : Bool :=
  !x.isNaN && (x == y || (x.isZero && y.isZero))

def isWhole (x : Binary64) : Bool := x.isFinite && x.units % one == 0

def truncate (x : Binary64) : Int :=
  let n : Int := x.units / one
  if x.negative then -n else n

/-- The integer part as an integer of 64 bits, the nearest one if it does not fit. -/
def toInt64 (x : Binary64) : Int64 :=
  Int64.ofInt (max Int64.minValue.toInt (min Int64.maxValue.toInt x.truncate))

end Binary64

end TableAccess
