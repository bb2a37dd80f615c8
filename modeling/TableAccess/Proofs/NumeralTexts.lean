import Mathlib.Algebra.Order.Field.Rat
import Mathlib.Data.List.TakeWhile
import Mathlib.Tactic.Positivity
import TableAccess.Number.Reading
import TableAccess.Proofs.DecimalTexts

/-!
# Texts of numbers

The grammar of the texts that are read as finite floating-point numbers, said without the reader,
and the number that each of them denotes. The reader accepts these texts and no others, and takes
from a text the digits and the power of ten that its number is made of.
-/
namespace TableAccess

namespace Text

/-- The exponent of a numeral, zero if nothing stands there. -/
inductive IsExponent : List Char → Int → Prop
  | none : IsExponent [] 0
  | some {e : Char} {cs : List Char} {n : Int} (he : e = 'e' ∨ e = 'E')
      (h : Denotes (String.ofList cs) n) : IsExponent (e :: cs) n

/-- Digits with at most one point among or around them, and an exponent. -/
inductive IsUnsigned : List Char → ℚ → Prop
  | whole {digits exponent : List Char} {n : Nat} {e : Int} (h : IsDecimal digits n)
      (he : IsExponent exponent e) : IsUnsigned (digits ++ exponent) (n * 10 ^ e)
  | point {whole fraction exponent : List Char} {n : Nat} {e : Int}
      (h : IsDecimal (whole ++ fraction) n) (he : IsExponent exponent e) :
    IsUnsigned (whole ++ '.' :: (fraction ++ exponent)) (n * 10 ^ (e - fraction.length))

/-- The text of a number in decimal, and the number. -/
def IsNumeralOf (s : String) (q : ℚ) : Prop :=
  ∃ cs m, IsUnsigned cs m ∧
    ((s.toList = cs ∨ s.toList = '+' :: cs) ∧ q = m ∨ s.toList = '-' :: cs ∧ q = -m)

/-- The text of a number in decimal. -/
def IsNumeral (s : String) : Prop := ∃ q, IsNumeralOf s q

theorem IsDecimal.lt_pow {cs : List Char} {n : Nat} (h : IsDecimal cs n) : n < 10 ^ cs.length := by
  obtain ⟨zeros, rfl⟩ := h
  have hdigits : n < 10 ^ (Nat.toDigits 10 n).length :=
    (Nat.length_toDigits_le_iff (by decide) Nat.length_toDigits_pos).mp (Nat.le_refl _)
  refine Nat.lt_of_lt_of_le hdigits (Nat.pow_le_pow_right (by decide) ?_)
  rw [List.length_append]
  exact Nat.le_add_left _ _

theorem IsDecimal.isUnsigned {cs : List Char} {n : Nat} (h : IsDecimal cs n) :
    IsUnsigned cs n := by
  have hwhole := IsUnsigned.whole h .none
  rwa [List.append_nil, zpow_zero, mul_one] at hwhole

/-- The text of an integer is that of a number. -/
theorem Denotes.isNumeralOf {s : String} {i : Int} (h : Denotes s i) : IsNumeralOf s i := by
  obtain ⟨sign, digits, hs, hdigits, ⟨hsign, hi⟩ | ⟨rfl, hi⟩⟩ := h
  · refine ⟨digits, _, hdigits.isUnsigned, .inl ⟨?_, ?_⟩⟩
    · rcases hsign with rfl | rfl
      · exact .inl hs
      · exact .inr hs
    · rw [← Int.cast_natCast, Int.natAbs_of_nonneg hi]
  · refine ⟨digits, _, hdigits.isUnsigned, .inr ⟨hs, ?_⟩⟩
    have habs : (i.natAbs : Int) = -i := by omega
    rw [← Int.cast_natCast, habs, Int.cast_neg, neg_neg]

theorem Denotes.isNumeral {s : String} {i : Int} (h : Denotes s i) : IsNumeral s :=
  ⟨i, h.isNumeralOf⟩

/-- An exponent starts with no digit. -/
theorem IsExponent.takeWhile_isDigit {cs : List Char} {e : Int} (h : IsExponent cs e) :
    cs.takeWhile Char.isDigit = [] ∧ cs.dropWhile Char.isDigit = cs := by
  cases h with
  | none => exact ⟨rfl, rfl⟩
  | some he => rcases he with rfl | rfl <;> exact ⟨rfl, rfl⟩

theorem IsUnsigned.exists_isDigit {cs : List Char} {q : ℚ} (h : IsUnsigned cs q) :
    ∃ c ∈ cs, c.isDigit = true := by
  have hfirst : ∀ {ds : List Char} {n : Nat}, IsDecimal ds n → ∃ c ∈ ds, c.isDigit = true := by
    intro ds n hds
    obtain ⟨c, hc⟩ := List.exists_mem_of_ne_nil ds hds.ne_nil
    exact ⟨c, hc, hds.isDigit c hc⟩
  cases h with
  | whole h he =>
    obtain ⟨c, hc, hdigit⟩ := hfirst h
    exact ⟨c, List.mem_append_left _ hc, hdigit⟩
  | point h he =>
    obtain ⟨c, hc, hdigit⟩ := hfirst h
    refine ⟨c, ?_, hdigit⟩
    rcases List.mem_append.mp hc with hc | hc <;> simp [hc]

/-- A number without a sign starts with a digit or with its point. -/
theorem IsUnsigned.exists_cons {cs : List Char} {q : ℚ} (h : IsUnsigned cs q) :
    ∃ c rest, cs = c :: rest ∧ (c.isDigit = true ∨ c = '.') := by
  cases h with
  | whole h he =>
    obtain ⟨c, ds, rfl⟩ := List.exists_cons_of_ne_nil h.ne_nil
    exact ⟨c, _, rfl, .inl (h.isDigit c List.mem_cons_self)⟩
  | @point whole fraction exponent n e h he =>
    cases whole with
    | nil => exact ⟨'.', _, rfl, .inr rfl⟩
    | cons c ds => exact ⟨c, _, rfl, .inl (h.isDigit c List.mem_cons_self)⟩

theorem IsUnsigned.ne_sign {cs : List Char} {q : ℚ} (h : IsUnsigned cs q) :
    (∀ ds, cs = '-' :: ds → False) ∧ ∀ ds, cs = '+' :: ds → False := by
  obtain ⟨c, rest, rfl, hc⟩ := h.exists_cons
  constructor
  all_goals
    rintro ds ⟨⟩
    revert hc
    decide

end Text

namespace Number
open Text

theorem digit?_eq_none {c : Char} (h : c.isDigit = false) : digit? c = none := by
  cases hdigit : digit? c with
  | none => rfl
  | some d => simp [isDigit_of_digit? hdigit] at h

/-- What the characters of a row of digits stand for. -/
def digitValues (cs : List Char) : List Nat := cs.map fun c => c.toNat - '0'.toNat

theorem takeDigits_eq (cs : List Char) :
    takeDigits cs = (digitValues (cs.takeWhile Char.isDigit), cs.dropWhile Char.isDigit) := by
  induction cs with
  | nil => rfl
  | cons c cs ih =>
    cases hc : c.isDigit with
    | true => simp [takeDigits, digit?_of_isDigit hc, ih, hc, digitValues]
    | false => simp [takeDigits, digit?_eq_none hc, hc, digitValues]

theorem readExponent?_eq (cs : List Char) :
    readExponent? cs = readInteger? (String.ofList cs) := by
  rw [readInteger?, String.toList_ofList]
  rfl

/-- The power of ten behind the digits, zero if nothing stands there. -/
def readTail? : List Char → Option Int
  | [] => some 0
  | c :: cs => if c == 'e' || c == 'E' then readExponent? cs else none

theorem readTail?_eq_some {cs : List Char} {n : Int} :
    readTail? cs = some n ↔ IsExponent cs n := by
  cases cs with
  | nil =>
    constructor
    · rintro ⟨⟩
      exact .none
    · rintro ⟨⟩
      rfl
  | cons c cs =>
    rw [readTail?]
    constructor
    · intro h
      split at h
      · next hc =>
        rw [readExponent?_eq, readInteger?_eq_some] at h
        exact .some (by simpa using hc) h
      · cases h
    · rintro (_ | ⟨he, h⟩)
      rw [if_pos (by simpa using he), readExponent?_eq]
      exact readInteger?_eq_some.mpr h

/-- The numeral of the digits on the two sides of a point and of what stands behind them. -/
def numeral? (whole fraction : List Nat) (rest : List Char) : Option Numeral :=
  if whole.isEmpty && fraction.isEmpty then none
  else (readTail? rest).map (⟨whole, fraction, ·⟩)

theorem numeral?_eq (whole fraction : List Nat) (rest : List Char) :
    numeral? whole fraction rest =
      if whole.isEmpty && fraction.isEmpty then none
      else
        match rest with
        | [] => some ⟨whole, fraction, 0⟩
        | c :: r =>
          if c == 'e' || c == 'E' then (readExponent? r).map (⟨whole, fraction, ·⟩) else none := by
  rw [numeral?]
  cases rest with
  | nil => rfl
  | cons c r =>
    simp only [readTail?]
    split_ifs <;> rfl

/-- A numeral is made of the digits on the two sides of a point, one at least, and of the exponent
behind them. -/
theorem numeral?_eq_some {whole fraction rest : List Char} {n : Numeral} :
    numeral? (digitValues whole) (digitValues fraction) rest = some n ↔
      whole ++ fraction ≠ [] ∧
        ∃ e, IsExponent rest e ∧ n = ⟨digitValues whole, digitValues fraction, e⟩ := by
  have hempty : ((digitValues whole).isEmpty && (digitValues fraction).isEmpty) = true ↔
      whole ++ fraction = [] := by
    simp [digitValues]
  rw [numeral?]
  split_ifs with h
  · simp [hempty.mp h]
  · rw [Option.map_eq_some_iff, and_iff_right (mt hempty.mpr h)]
    simp only [readTail?_eq_some, eq_comm (b := n)]

theorem readNumeral?_of_point {cs r : List Char} (h : cs.dropWhile Char.isDigit = '.' :: r) :
    readNumeral? cs = numeral? (digitValues (cs.takeWhile Char.isDigit))
      (digitValues (r.takeWhile Char.isDigit)) (r.dropWhile Char.isDigit) := by
  simp only [readNumeral?, takeDigits_eq, h]
  exact (numeral?_eq _ _ _).symm

theorem readNumeral?_of_not_point {cs : List Char}
    (h : ∀ r, cs.dropWhile Char.isDigit = '.' :: r → False) :
    readNumeral? cs = numeral? (digitValues (cs.takeWhile Char.isDigit)) (digitValues [])
      (cs.dropWhile Char.isDigit) := by
  simp only [readNumeral?, takeDigits_eq]
  exact (numeral?_eq _ _ _).symm

namespace Numeral

/-- The number that a numeral denotes. -/
def value (n : Numeral) : ℚ := n.digits * 10 ^ n.scale

/-- No more digits are denoted than there are. -/
def Fits (n : Numeral) : Prop := n.digits < 10 ^ (n.whole ++ n.fraction).length

theorem digits_eq {whole fraction : List Char} {n : Nat} (h : IsDecimal (whole ++ fraction) n)
    (e : Int) : (⟨digitValues whole, digitValues fraction, e⟩ : Numeral).digits = n := by
  rw [digits, ← h.ofDigitChars_eq, ← ofDigits_map, digitValues, digitValues, ← List.map_append]

theorem value_eq {whole fraction : List Char} {n : Nat} (h : IsDecimal (whole ++ fraction) n)
    (e : Int) : (⟨digitValues whole, digitValues fraction, e⟩ : Numeral).value =
      n * 10 ^ (e - fraction.length) := by
  rw [value, digits_eq h, scale, digitValues, digitValues, List.length_map]

theorem fits {whole fraction : List Char} {n : Nat} (h : IsDecimal (whole ++ fraction) n)
    (e : Int) : (⟨digitValues whole, digitValues fraction, e⟩ : Numeral).Fits := by
  rw [Fits, digits_eq h]
  simpa [digitValues] using h.lt_pow

end Numeral

/-- What the reader takes for a numeral is one, and it denotes its number. -/
theorem isUnsigned_of_readNumeral? {cs : List Char} {n : Numeral} (h : readNumeral? cs = some n) :
    IsUnsigned cs n.value ∧ n.Fits := by
  have hdigits : ∀ {cs : List Char}, ∀ c ∈ cs.takeWhile Char.isDigit, c.isDigit = true :=
    fun _ => List.mem_takeWhile_imp
  rw [← List.takeWhile_append_dropWhile (p := Char.isDigit) (l := cs)]
  by_cases hpoint : ∃ r, cs.dropWhile Char.isDigit = '.' :: r
  · obtain ⟨r, hr⟩ := hpoint
    rw [readNumeral?_of_point hr] at h
    obtain ⟨hne, e, he, rfl⟩ := numeral?_eq_some.mp h
    have hdecimal := isDecimal_ofDigitChars hne (List.forall_mem_append.mpr ⟨hdigits, hdigits⟩)
    refine ⟨?_, Numeral.fits hdecimal e⟩
    rw [hr, Numeral.value_eq hdecimal,
      ← List.takeWhile_append_dropWhile (p := Char.isDigit) (l := r)]
    simpa using IsUnsigned.point hdecimal he
  · rw [readNumeral?_of_not_point fun r hr => hpoint ⟨r, hr⟩] at h
    obtain ⟨hne, e, he, rfl⟩ := numeral?_eq_some.mp h
    obtain ⟨n, hdecimal⟩ : ∃ n, IsDecimal (cs.takeWhile Char.isDigit ++ []) n :=
      ⟨_, isDecimal_ofDigitChars hne (by simpa using hdigits)⟩
    refine ⟨?_, Numeral.fits hdecimal e⟩
    rw [Numeral.value_eq hdecimal, List.length_nil, Nat.cast_zero, sub_zero]
    rw [List.append_nil] at hdecimal
    exact .whole hdecimal he

/-- What is a numeral is taken for one. -/
theorem exists_readNumeral? {cs : List Char} {q : ℚ} (h : IsUnsigned cs q) :
    ∃ n, readNumeral? cs = some n ∧ n.value = q := by
  cases h with
  | @whole digits exponent n e h he =>
    obtain ⟨htake, hdrop⟩ := he.takeWhile_isDigit
    have hpoint : ∀ r, (digits ++ exponent).dropWhile Char.isDigit = '.' :: r → False := by
      intro r hr
      rw [List.dropWhile_append_of_pos h.isDigit, hdrop] at hr
      rw [hr] at he
      cases he with
      | some he => rcases he with he | he <;> cases he
    have hdecimal : IsDecimal (digits ++ []) n := by rwa [List.append_nil]
    refine ⟨⟨digitValues digits, digitValues [], e⟩, ?_, ?_⟩
    · rw [readNumeral?_of_not_point hpoint, List.takeWhile_append_of_pos h.isDigit,
        List.dropWhile_append_of_pos h.isDigit, htake, hdrop, List.append_nil]
      exact numeral?_eq_some.mpr ⟨hdecimal.ne_nil, e, he, rfl⟩
    · rw [Numeral.value_eq hdecimal, List.length_nil, Nat.cast_zero, sub_zero]
  | @point whole fraction exponent n e h he =>
    obtain ⟨htake, hdrop⟩ := he.takeWhile_isDigit
    obtain ⟨hwhole, hfraction⟩ := List.forall_mem_append.mp h.isDigit
    have hpoint : (whole ++ '.' :: (fraction ++ exponent)).dropWhile Char.isDigit =
        '.' :: (fraction ++ exponent) := by
      rw [List.dropWhile_append_of_pos hwhole]
      rfl
    have htakeWhole : (whole ++ '.' :: (fraction ++ exponent)).takeWhile Char.isDigit = whole := by
      rw [List.takeWhile_append_of_pos hwhole]
      exact List.append_nil whole
    refine ⟨⟨digitValues whole, digitValues fraction, e⟩, ?_, Numeral.value_eq h e⟩
    rw [readNumeral?_of_point hpoint, htakeWhole, List.takeWhile_append_of_pos hfraction,
      List.dropWhile_append_of_pos hfraction, htake, hdrop, List.append_nil]
    exact numeral?_eq_some.mpr ⟨h.ne_nil, e, he, rfl⟩

theorem lowerAscii_of_isDigit {c : Char} (h : c.isDigit = true) : lowerAscii c = c := by
  have hrange : ¬('A' ≤ c ∧ c ≤ 'Z') := by
    intro hletter
    simp only [Char.isDigit, Bool.and_eq_true, decide_eq_true_eq] at h
    have hle : 'A' ≤ '9' := Char.le_trans hletter.1 h.2
    exact absurd hle (by decide)
  rw [lowerAscii, if_neg hrange]

end Number

namespace Binary64
open Number Text
variable {round : Bool → Nat → Nat → Binary64} {negative : Bool} {cs : List Char} {s : String}
  {x : Binary64} {q : ℚ}

theorem isUnsigned_of_readMagnitude? (h : readMagnitude? round negative cs = some x)
    (hx : x.isFinite = true) :
    ∃ n : Numeral, IsUnsigned cs n.value ∧ n.Fits ∧ x = round negative n.ratio.1 n.ratio.2 := by
  simp only [readMagnitude?] at h
  split at h
  · cases h
    cases negative <;> exact absurd hx (by decide)
  split at h
  · cases h
    cases negative <;> exact absurd hx (by decide)
  · obtain ⟨n, hn, hround⟩ := Option.map_eq_some_iff.mp h
    obtain ⟨hunsigned, hfits⟩ := isUnsigned_of_readNumeral? hn
    exact ⟨n, hunsigned, hfits, hround.symm⟩

/-- The number of a numeral with a sign in front. -/
def signed (negative : Bool) (q : ℚ) : ℚ := if negative then -q else q

/-- Only the text of a number in decimal is read as a finite number. -/
theorem isNumeralOf_of_ofText? (h : ofText? s = some x) (hx : x.isFinite = true) :
    ∃ (negative : Bool) (n : Numeral), IsNumeralOf s (signed negative n.value) ∧ n.Fits ∧
      x = ofRatio negative n.ratio.1 n.ratio.2 := by
  simp only [ofText?, readSigned?] at h
  split at h
  · next cs hs =>
    obtain ⟨n, hn, hfits, hround⟩ := isUnsigned_of_readMagnitude? h hx
    exact ⟨true, n, ⟨cs, _, hn, .inr ⟨hs, rfl⟩⟩, hfits, hround⟩
  · next cs hs =>
    obtain ⟨n, hn, hfits, hround⟩ := isUnsigned_of_readMagnitude? h hx
    exact ⟨false, n, ⟨cs, _, hn, .inl ⟨.inr hs, rfl⟩⟩, hfits, hround⟩
  · obtain ⟨n, hn, hfits, hround⟩ := isUnsigned_of_readMagnitude? h hx
    exact ⟨false, n, ⟨_, _, hn, .inl ⟨.inl rfl, rfl⟩⟩, hfits, hround⟩

/-- Characters with a digit among them are no word, in whatever case. -/
theorem ofList_map_lowerAscii_ne {w : String} (h : ∃ c ∈ cs, c.isDigit = true)
    (hw : w.toList.any Char.isDigit = false) : String.ofList (cs.map lowerAscii) ≠ w := by
  rintro rfl
  obtain ⟨c, hc, hdigit⟩ := h
  have hmem : c ∈ (String.ofList (cs.map lowerAscii)).toList := by
    rw [String.toList_ofList]
    exact List.mem_map.mpr ⟨c, hc, lowerAscii_of_isDigit hdigit⟩
  exact List.any_eq_false.mp hw c hmem hdigit

variable (round negative) in
theorem readMagnitude?_of_isUnsigned (h : IsUnsigned cs q) :
    ∃ n : Numeral, n.value = q ∧ n.Fits ∧
      readMagnitude? round negative cs = some (round negative n.ratio.1 n.ratio.2) := by
  have hdigit := h.exists_isDigit
  have hinf := ofList_map_lowerAscii_ne (w := "inf") hdigit rfl
  have hinfinity := ofList_map_lowerAscii_ne (w := "infinity") hdigit rfl
  have hnan := ofList_map_lowerAscii_ne (w := "nan") hdigit rfl
  obtain ⟨n, hn, hvalue⟩ := exists_readNumeral? h
  refine ⟨n, hvalue, (isUnsigned_of_readNumeral? hn).2, ?_⟩
  simp only [readMagnitude?]
  rw [if_neg (not_or.mpr ⟨hinf, hinfinity⟩), if_neg hnan, hn, Option.map_some]

/-- The text of a number in decimal is read as what its digits and its power of ten are rounded
to. -/
theorem ofText?_of_isNumeralOf (h : IsNumeralOf s q) :
    ∃ (negative : Bool) (n : Numeral), q = signed negative n.value ∧ n.Fits ∧
      ofText? s = some (ofRatio negative n.ratio.1 n.ratio.2) := by
  obtain ⟨cs, m, hunsigned, ⟨hs, rfl⟩ | ⟨hs, rfl⟩⟩ := h
  · obtain ⟨n, rfl, hfits, hread⟩ := readMagnitude?_of_isUnsigned ofRatio false hunsigned
    refine ⟨false, n, rfl, hfits, ?_⟩
    simp only [ofText?, readSigned?]
    rcases hs with hs | hs <;> rw [hs]
    · split
      · exact (hunsigned.ne_sign.1 _ rfl).elim
      · exact (hunsigned.ne_sign.2 _ rfl).elim
      · exact hread
    · exact hread
  · obtain ⟨n, rfl, hfits, hread⟩ := readMagnitude?_of_isUnsigned ofRatio true hunsigned
    refine ⟨true, n, rfl, hfits, ?_⟩
    simp only [ofText?, readSigned?]
    rw [hs]
    exact hread

end Binary64

end TableAccess
