/-!
# Rounding a ratio to a binary format

A format keeps a fixed number of fraction bits. Its magnitudes are listed in order by an
index, exponent field above fraction field, and all of them are whole multiples of one unit.
`BinaryFormat.index` rounds a ratio of natural numbers to the nearest magnitude, a tie going
to the even index.
-/
namespace TableAccess

/-- A power is that of the core library, also where an algebraic library brings its own. -/
@[default_instance 20000]
instance (priority := 20000) powNat {α : Type} [NatPow α] : Pow α Nat := instPowNat

namespace Number

/-- The quotient rounded to the nearest natural number, a half to the even one. -/
def roundHalfEven (num den : Nat) : Nat :=
  let q := num / den
  let r := num % den
  if 2 * r < den then q
  else if den < 2 * r then q + 1
  else q + q % 2

/-- A binary format: the bits of the fraction field, the power of two that one divides into
units, and the exponent field of the infinities. -/
structure BinaryFormat where
  fractionBits : Nat
  unitBits : Nat
  lastExponent : Nat

namespace BinaryFormat

def double : BinaryFormat := ⟨52, 1074, 2047⟩

def single : BinaryFormat := ⟨23, 149, 255⟩

/-- The index of infinity, above that of every finite magnitude. -/
def infinityIndex (f : BinaryFormat) : Nat := f.lastExponent * 2 ^ f.fractionBits

/-- The magnitude at an index, in units. Above the finite ones the count goes on as if there
were larger exponents. -/
def units (f : BinaryFormat) (index : Nat) : Nat :=
  let exponent := index / 2 ^ f.fractionBits
  let fraction := index % 2 ^ f.fractionBits
  if exponent = 0 then fraction
  else (2 ^ f.fractionBits + fraction) * 2 ^ (exponent - 1)

def index (f : BinaryFormat) (num den : Nat) : Nat :=
  let scaled := num * 2 ^ f.unitBits
  let shift := Nat.log2 (scaled / den) - f.fractionBits
  let significand := roundHalfEven scaled (den * 2 ^ shift)
  min (shift * 2 ^ f.fractionBits + significand) f.infinityIndex

end BinaryFormat

end Number

end TableAccess
