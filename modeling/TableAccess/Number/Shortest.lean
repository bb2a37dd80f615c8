import TableAccess.Number.Binary64

/-!
# The shortest decimal that reads back

Of the decimals that round to a given finite number, `shortest` takes one with the fewest
digits, and of those the nearest. With 1, 2, … 17 digits it looks at the two neighbours of the
number on the grid of decimals with that many digits; the first grid with a neighbour in the
rounding interval wins. Two neighbours at the same distance are told apart by a tie rule.
-/
namespace TableAccess.Number

/-- The decimal `digits * 10 ^ exponent`. -/
structure Decimal where
  digits : Nat
  exponent : Int
  deriving DecidableEq

/-- Which of two equally near decimals is taken. -/
inductive Tie where
  | toEven
  | away
  deriving DecidableEq

namespace Decimal

def width (n : Nat) : Nat := (Nat.toDigits 10 n).length

def leading (d : Decimal) : Int := d.exponent + width d.digits - 1

def dropZeros : Nat → Decimal → Decimal
  | 0, d => d
  | fuel + 1, d =>
    if d.digits ≠ 0 ∧ d.digits % 10 = 0 then dropZeros fuel ⟨d.digits / 10, d.exponent + 1⟩ else d

end Decimal

/-- The power of ten of the leading digit of the ratio `num / den`, both positive. -/
def leadingPower (num den : Nat) : Int :=
  if den ≤ num then Decimal.width (num / den) - 1
  else
    let w := Decimal.width (den / num)
    if den ≤ num * 10 ^ (w - 1) then -((w - 1 : Nat) : Int) else -(w : Int)

/-- The reals that round to one magnitude: from `low` to `high` around `value`, in half units,
the ends counted if `closed`. -/
structure Interval where
  low : Nat
  value : Nat
  high : Nat
  closed : Bool

def Interval.one : Nat := 2 ^ 1075

def Interval.around (index : Nat) : Interval :=
  let f := BinaryFormat.double
  ⟨f.units (index - 1) + f.units index, 2 * f.units index, f.units index + f.units (index + 1),
    index % 2 == 0⟩

/-- The neighbour of the interval's value, on the grid of multiples of `10 ^ k`, that lies in
the interval, the nearer one if both do. -/
def Interval.onGrid (i : Interval) (tie : Tie) (k : Int) : Option Decimal :=
  let up := 10 ^ k.toNat * Interval.one
  let down := 10 ^ (-k).toNat
  let inside (d : Nat) : Bool :=
    if i.closed then i.low * down ≤ d * up && d * up ≤ i.high * down
    else i.low * down < d * up && d * up < i.high * down
  let below := i.value * down / up
  let above := below + 1
  match inside below, inside above with
  | true, true =>
    let middle := (below + above) * up
    let exact := 2 * (i.value * down)
    if exact < middle then some ⟨below, k⟩
    else if middle < exact then some ⟨above, k⟩
    else if tie = .toEven ∧ below % 2 = 0 then some ⟨below, k⟩
    else some ⟨above, k⟩
  | true, false => some ⟨below, k⟩
  | false, true => some ⟨above, k⟩
  | false, false => none

/-- The shortest decimal of a finite magnitude, nearest to it among those of its length. -/
def shortest (tie : Tie) (x : Binary64) : Decimal :=
  if x.index = 0 then ⟨0, 0⟩
  else
    let i := Interval.around x.index
    let e := leadingPower i.value Interval.one
    let found := (List.range 17).findSome? fun n : Nat => i.onGrid tie (e - (n : Int))
    (found.getD ⟨0, 0⟩).dropZeros 17

end TableAccess.Number
