import TableAccess.Number.Bounds
import TableAccess.Text.Integer

/-!
# Number literals of a document

A literal without point and exponent is an integer as long as it fits a word of 64 bits, signed
below zero and unsigned above. Every other literal is floating point, in two steps: the leading
digits that fit an unsigned word make a significand, and that is scaled by a power of ten, each
step rounded. A literal whose scaled value is infinite denotes nothing, and one that is scaled down
stays small in every step, so that the numbers of a document are finite.
-/
namespace TableAccess.Json
open TableAccess.Number

structure Literal where
  negative : Bool
  whole : List Nat
  fraction : Option (List Nat)
  exponent : Option (Bool × List Nat)

/-- An integer that fits a word of 64 bits, signed below zero and unsigned above. -/
@[ext]
structure Integer where
  val : Int
  inRange : -2 ^ 63 ≤ val ∧ val < 2 ^ 64
  deriving DecidableEq

namespace Integer

instance : Coe Integer Int := ⟨val⟩

/-- The nearest integer that fits. -/
def nearest (i : Int) : Integer := ⟨max (-2 ^ 63) (min (2 ^ 64 - 1) i), by omega⟩

instance : IntCast Integer := ⟨nearest⟩

instance : NatCast Integer := ⟨fun n => nearest n⟩

instance (n : Nat) : OfNat Integer n := ⟨nearest n⟩

instance : Neg Integer := ⟨fun i => nearest (-i)⟩

instance : LE Integer := ⟨fun i j => (i : Int) ≤ j⟩

instance (i j : Integer) : Decidable (i ≤ j) := inferInstanceAs (Decidable ((i : Int) ≤ j))

def toNat (i : Integer) : Nat := (i : Int).toNat

def ofInt64 (i : Int64) : Integer :=
  ⟨i.toInt, by
    have hlow := i.le_toInt
    have hhigh := i.toInt_lt
    omega⟩

def ofUInt32 (n : UInt32) : Integer :=
  ⟨n.toNat, by
    have hlt := n.toNat_lt
    omega⟩

@[simp]
theorem val_ofInt64 (i : Int64) : (ofInt64 i).val = i.toInt := rfl

@[simp]
theorem val_ofUInt32 (n : UInt32) : (ofUInt32 n).val = n.toNat := rfl

def ofInt? (i : Int) : Option Integer :=
  if h : -2 ^ 63 ≤ i ∧ i < 2 ^ 64 then some ⟨i, h⟩ else none

theorem ofInt?_eq_some {n : Int} {i : Integer} : ofInt? n = some i ↔ i.val = n := by
  constructor
  · intro h
    unfold ofInt? at h
    split at h
    · cases h
      rfl
    · cases h
  · rintro rfl
    exact dif_pos i.inRange

theorem ofInt?_eq_none {n : Int} : ofInt? n = none ↔ n < -2 ^ 63 ∨ 2 ^ 64 ≤ n := by
  unfold ofInt?
  split
  · next h =>
    simp only [reduceCtorEq, false_iff]
    omega
  · next h =>
    simp only [true_iff]
    omega

end Integer

/-- A floating-point number that is not infinite or undefined. -/
@[ext]
structure FiniteFloat where
  val : Binary64
  isFinite : val.isFinite = true
  deriving DecidableEq

/-- What a literal denotes. -/
inductive Numeric where
  | int (i : Integer)
  | float (x : FiniteFloat)
  deriving DecidableEq

def maxWord : Nat := 2 ^ 64 - 1

/-- Appends digits to a significand while it stays a word; also says how many were left. -/
def absorb : Nat → List Nat → Nat × Nat
  | s, [] => (s, 0)
  | s, d :: ds => if s * 10 + d ≤ maxWord then absorb (s * 10 + d) ds else (s, ds.length + 1)

theorem absorb_le {s : Nat} (h : s ≤ maxWord) (ds : List Nat) : (absorb s ds).1 ≤ maxWord := by
  induction ds generalizing s with
  | nil => exact h
  | cons d ds ih =>
    rw [absorb]
    split
    · next hd => exact ih hd
    · exact h

def power (n : Nat) : Binary64 := .ofRatio false (10 ^ n) 1

theorem le_units_power (n : Nat) : 2 ^ 0 * Binary64.one ≤ (power n).units :=
  Binary64.le_units_ofRatio_one (Nat.one_le_pow _ _ (by decide)) (by decide)

theorem le_units_power_of_pos {n : Nat} (hn : 0 < n) :
    2 ^ 3 * Binary64.one ≤ (power n).units := by
  have hten : 10 ^ 1 ≤ 10 ^ n := Nat.pow_le_pow_right (by decide) hn
  exact Binary64.le_units_ofRatio_one (Nat.le_trans (by decide) hten) (by decide)

/-- Scales down by 308 powers of ten at a time and then by the rest. -/
def scaleDown (x : Binary64) (n : Nat) : Binary64 :=
  if n ≤ 308 then x.div (power n)
  else if x.isZero then x
  else scaleDown (x.div (power 308)) (n - 308)
  termination_by n

/-- Dividing by a large power makes up for what rounding adds, so any number of such steps stays
below one bound. -/
theorem isFinite_scaleDown (x : Binary64) (n : Nat)
    (h : x.units < 2 ^ (64 + 1 + BinaryFormat.double.unitBits)) :
    (scaleDown x n).isFinite = true := by
  induction n using Nat.strongRecOn generalizing x with
  | ind n ih =>
    rw [scaleDown]
    rw [Binary64.two_pow_add_unitBits (64 + 1)] at h
    split
    · have hpower := le_units_power n
      have hratio : x.units < 2 ^ 65 * (power n).units := by omega
      exact Binary64.isFinite_ofRatio hratio (by decide)
    · split
      · next hzero => exact Binary64.isFinite_of_isZero hzero
      · -- The quotient has at least three bits less than its numerator; rounding takes back one.
        have hpower := le_units_power_of_pos (n := 308) (by decide)
        have hratio : x.units < 2 ^ 64 * (power 308).units := by omega
        exact ih (n - 308) (by omega) _ (Binary64.units_ofRatio_lt hratio)

/-- A significand times a power of ten; none if that is infinite. -/
def scaled? (significand : Nat) (exponent : Int) : Option Binary64 :=
  let x := Binary64.ofRatio false significand 1
  if exponent < 0 then some (scaleDown x exponent.natAbs)
  else if 308 < exponent then (if x.isZero then some x else none)
  else
    let y := x.mul (power exponent.natAbs)
    if y.isFinite then some y else none

theorem isFinite_of_scaled? {significand : Nat} {exponent : Int} {x : Binary64}
    (hword : significand ≤ maxWord) (h : scaled? significand exponent = some x) :
    x.isFinite = true := by
  have hratio : significand < 2 ^ 64 * 1 := Nat.lt_of_le_of_lt hword (by decide)
  simp only [scaled?] at h
  split at h
  · cases h
    exact isFinite_scaleDown _ _ (Binary64.units_ofRatio_lt hratio)
  split at h
  · split at h
    · next hzero =>
      cases h
      exact Binary64.isFinite_of_isZero hzero
    · cases h
  · split at h
    · next hfinite =>
      cases h
      exact hfinite
    · cases h

namespace Literal

/-- The significand, and the power of ten it is scaled by before the exponent counts. -/
def significand (l : Literal) : Nat × Int :=
  let (s, left) := absorb 0 l.whole
  let fraction := l.fraction.getD []
  let (t, unused) := absorb s fraction
  (t, (left : Int) - ((fraction.length - unused : Nat) : Int))

theorem significand_le (l : Literal) : l.significand.1 ≤ maxWord :=
  absorb_le (absorb_le (Nat.zero_le _) _) _

def written (l : Literal) : Int :=
  match l.exponent with
  | none => 0
  | some (negative, ds) => if negative then -(Text.ofDigits ds : Int) else Text.ofDigits ds

def float? (l : Literal) : Option FiniteFloat :=
  (scaled? l.significand.1 (l.significand.2 + l.written)).pmap
    (fun x h => ⟨if l.negative then x.neg else x, by split <;> exact h⟩)
    fun _ => isFinite_of_scaled? l.significand_le

/-- The integer reading, for a literal of whole digits that fit. -/
def int? (l : Literal) : Option Integer :=
  if l.fraction.isSome || l.exponent.isSome then none
  else
    let n := Text.ofDigits l.whole
    if l.negative then (if 0 < n then Integer.ofInt? (-(n : Int)) else none)
    else Integer.ofInt? n

def value? (l : Literal) : Option Numeric :=
  match l.int? with
  | some i => some (.int i)
  | none => l.float?.map .float

end Literal

end TableAccess.Json
