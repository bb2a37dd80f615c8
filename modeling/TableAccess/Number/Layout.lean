import TableAccess.Number.Shortest

/-!
# Layouts of decimal numbers

A layout decides how the shortest decimal of a number is written: which powers of ten of the
leading digit are written positionally, whether a whole number carries a fraction digit,
whether a positive exponent carries its sign, and how a tie between two shortest decimals is
broken. Every format of the library is one value of `Layout`.
-/
namespace TableAccess.Number

/-- How a finite number is written. -/
structure Layout where
  positional : Int → Bool
  wholeFraction : Bool
  plusSign : Bool
  tie : Tie

namespace Layout

/-- Digits with the point set after the place of ones. -/
def placed (wholeFraction : Bool) (digits : List Char) (exponent : Int) : List Char :=
  let point := digits.length + exponent
  if 0 ≤ exponent then
    digits ++ List.replicate exponent.toNat '0' ++ (if wholeFraction then ['.', '0'] else [])
  else if 0 < point then
    digits.take point.toNat ++ '.' :: digits.drop point.toNat
  else
    '0' :: '.' :: List.replicate (-point).toNat '0' ++ digits

/-- Digits with the point after the first one, and the power of ten of that one. -/
def scientific (plusSign : Bool) (digits : List Char) (leading : Int) : List Char :=
  let tail := digits.drop 1
  let sign := if leading < 0 then ['-'] else if plusSign then ['+'] else []
  digits.take 1 ++ (if tail.isEmpty then [] else '.' :: tail) ++ 'e' :: sign
    ++ Nat.toDigits 10 leading.natAbs

def magnitude (l : Layout) (d : Decimal) : List Char :=
  let digits := Nat.toDigits 10 d.digits
  if l.positional d.leading then placed l.wholeFraction digits d.exponent
  else scientific l.plusSign digits d.leading

def finite (l : Layout) (x : Binary64) : String :=
  String.ofList ((if x.negative then ['-'] else []) ++ l.magnitude (shortest l.tie x))

def write (l : Layout) (x : Binary64) : String :=
  if x.isNaN then "NaN"
  else if x.isFinite then l.finite x
  else if x.negative then "-inf"
  else "inf"

end Layout

end TableAccess.Number

namespace TableAccess.Binary64
open TableAccess.Number

/-- Numbers in plain text are always positional and show no fraction when whole. -/
def plainLayout : Layout := ⟨fun _ => true, false, false, .away⟩

/-- Numbers in documents keep a fraction digit, and have an exponent with its sign outside
the powers -5 to 15. -/
def documentLayout : Layout := ⟨fun e => -5 ≤ e && e ≤ 15, true, true, .toEven⟩

/-- Numbers in diagnostics keep a fraction digit, and have an exponent outside the powers -4
to 15. -/
def diagnosticLayout : Layout := ⟨fun e => -4 ≤ e && e ≤ 15, true, false, .away⟩

def toText (x : Binary64) : String := plainLayout.write x

end TableAccess.Binary64
