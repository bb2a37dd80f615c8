import Mathlib.Data.List.Find
import Mathlib.Data.Nat.Cast.Field
import TableAccess.Proofs.FoldedPairs
import TableAccess.Proofs.PlainNumbers

/-!
# Numbers as keys

As a key a number has a text, which is that of an integer of 64 bits or that of a fraction. Equal
numbers have equal texts, whether they are integers or floating-point numbers, and numbers within
the range of the integers have equal texts only if they are equal. Beyond the range the nearest
integer stands for a number.
-/
namespace TableAccess

/-- The number that a finite floating-point number denotes. -/
def Binary64.toRat (x : Binary64) : ℚ :=
  if x.negative then -(x.units / one : ℚ) else x.units / one

/-- The number that a value denotes, if it is one. -/
def Value.number? : Value → Option ℚ
  | .int i => some i.toInt
  | .float x => if x.isFinite then some x.toRat else none
  | _ => none

/-- The number nearest to another one within the range of the integers of 64 bits. -/
def nearestInRange (q : ℚ) : ℚ := max Int64.minValue.toInt (min Int64.maxValue.toInt q)

/-- The integer of 64 bits nearest to an integer. -/
def nearestInt64 (n : Int) : Int := max Int64.minValue.toInt (min Int64.maxValue.toInt n)

/-- A number within the range of the integers of 64 bits. -/
def IsInRange (q : ℚ) : Prop := (Int64.minValue.toInt : ℚ) ≤ q ∧ q ≤ Int64.maxValue.toInt

instance (q : ℚ) : Decidable (IsInRange q) :=
  inferInstanceAs (Decidable ((Int64.minValue.toInt : ℚ) ≤ q ∧ q ≤ Int64.maxValue.toInt))

theorem nearestInRange_eq_self {q : ℚ} (h : IsInRange q) : nearestInRange q = q := by
  rw [nearestInRange, min_eq_right h.2, max_eq_right h.1]

theorem nearestInRange_intCast (n : Int) : nearestInRange n = nearestInt64 n := by
  rw [nearestInRange, nearestInt64]
  push_cast
  rfl

theorem nearestInt64_toInt (i : Int64) : nearestInt64 i.toInt = i.toInt := by
  rw [nearestInt64, min_eq_right i.toInt_le, max_eq_right i.minValue_le_toInt]

namespace Binary64
open Number
variable {x y : Binary64}

theorem isWhole_iff : x.isWhole = true ↔ x.isFinite = true ∧ one ∣ x.units := by
  rw [isWhole, Bool.and_eq_true, beq_iff_eq, Nat.dvd_iff_mod_eq_zero]

theorem eq_of_index_eq (hsign : x.negative = y.negative) (h : x.index = y.index) : x = y := by
  have hx := x.fraction.isLt
  have hy := y.fraction.isLt
  unfold index at h
  have hexponent : x.exponent = y.exponent := Fin.ext (by omega)
  have hfraction : x.fraction = y.fraction := Fin.ext (by omega)
  cases x
  cases y
  exact (mk.injEq ..).mpr ⟨hsign, hexponent, hfraction⟩

theorem toRat_of_whole (h : one ∣ x.units) : x.toRat = x.truncate := by
  have hone : (one : ℚ) ≠ 0 := by exact_mod_cast one_pos.ne'
  have hdiv : (x.units / one : ℚ) = ((x.units / one : Nat) : Int) := by
    rw [Int.cast_natCast, Nat.cast_div h hone]
  rw [toRat, truncate, hdiv]
  split_ifs
  · exact (Int.cast_neg _).symm
  · rfl

theorem toInt_toInt64 (x : Binary64) : x.toInt64.toInt = nearestInt64 x.truncate := by
  have hmin : Int64.minValue.toInt = -2 ^ 63 := rfl
  have hmax : Int64.maxValue.toInt = 2 ^ 63 - 1 := rfl
  rw [toInt64, Int64.toInt_ofInt_of_le (by omega) (by omega), nearestInt64]

/-- Large numbers are whole. -/
theorem units_lt_of_fraction (h : ¬ one ∣ x.units) : x.units < 2 ^ 53 * one := by
  have hsignificand : BinaryFormat.double.significand x.index < 2 ^ 53 :=
    BinaryFormat.double.significand_lt x.index
  rw [units, BinaryFormat.units_eq] at h ⊢
  rcases one_dvd_or_dvd (x.index / 2 ^ BinaryFormat.double.fractionBits - 1) with hdvd | hdvd
  · exact absurd (hdvd.mul_left _) h
  · have hulp : BinaryFormat.double.ulp x.index ≤ one := Nat.le_of_dvd one_pos hdvd
    exact Nat.mul_lt_mul_of_lt_of_le hsignificand hulp one_pos

theorem abs_toRat (x : Binary64) : |x.toRat| = x.units / one := by
  have hnonneg : (0 : ℚ) ≤ x.units / one := by positivity
  unfold toRat
  split_ifs
  · rw [abs_neg, abs_of_nonneg hnonneg]
  · exact abs_of_nonneg hnonneg

/-- A fraction lies within the range of the integers. -/
theorem nearestInRange_of_fraction (h : ¬ one ∣ x.units) : nearestInRange x.toRat = x.toRat := by
  have hmin : (Int64.minValue.toInt : ℚ) = -2 ^ 63 := by norm_cast
  have hmax : (Int64.maxValue.toInt : ℚ) = 2 ^ 63 - 1 := by norm_cast
  have hone : (0 : ℚ) < one := by exact_mod_cast one_pos
  have hunits : (x.units : ℚ) < (2 ^ 53 * one : Nat) := Nat.cast_lt.mpr (units_lt_of_fraction h)
  rw [Nat.cast_mul, Nat.cast_pow, Nat.cast_ofNat] at hunits
  have habs : |x.toRat| < 2 ^ 53 := by
    rw [abs_toRat, div_lt_iff₀ hone]
    exact hunits
  obtain ⟨hlow, hhigh⟩ := abs_lt.mp habs
  exact nearestInRange_eq_self ⟨by linarith, by linarith⟩

/-- A fraction is no integer. -/
theorem toRat_ne_intCast (h : ¬ one ∣ x.units) (n : Int) : x.toRat ≠ n := by
  intro hn
  have hone : (one : ℚ) ≠ 0 := by exact_mod_cast one_pos.ne'
  have habs : (x.units : ℚ) / one = (n.natAbs : ℚ) := by
    rw [← abs_toRat, hn, ← Int.cast_abs, Int.abs_eq_natAbs, Int.cast_natCast]
  rw [div_eq_iff hone] at habs
  have hunits : x.units = n.natAbs * one := by exact_mod_cast habs
  exact h (hunits ▸ Nat.dvd_mul_left _ _)

/-- Fractions that denote the same number are the same. -/
theorem eq_of_toRat_eq (hx : ¬ one ∣ x.units) (h : x.toRat = y.toRat) : x = y := by
  have hone : (0 : ℚ) < one := by exact_mod_cast one_pos
  have hpos : 0 < x.units := Nat.pos_of_ne_zero fun hzero => hx (hzero ▸ Nat.dvd_zero _)
  have habs : (x.units : ℚ) / one = y.units / one := by rw [← abs_toRat, ← abs_toRat, h]
  have hunits : x.units = y.units := by
    exact_mod_cast (div_left_inj' hone.ne').mp habs
  have hratio : (0 : ℚ) < x.units / one := div_pos (by exact_mod_cast hpos) hone
  have hsign : x.negative = y.negative := by
    rw [toRat, toRat, ← habs] at h
    split_ifs at h with hnx hny hny
    · rw [hnx, hny]
    · linarith
    · linarith
    · rw [Bool.eq_false_iff.mpr hnx, Bool.eq_false_iff.mpr hny]
  exact eq_of_index_eq hsign (BinaryFormat.double.strictMono_units.injective hunits)

end Binary64

namespace Value

/-- The text of a number as a key: that of the nearest integer of 64 bits if the number is whole,
and that of the fraction otherwise. -/
inductive KeyedAs : Value → ℚ → Prop
  | whole {v : Value} (n : Int) (h : v.keyText = toString (nearestInt64 n)) : KeyedAs v n
  | fraction {x : Binary64} (hfinite : x.isFinite = true) (hfraction : ¬ Binary64.one ∣ x.units)
      (h : keyText (.float x) = x.toText) : KeyedAs (.float x) x.toRat

theorem keyedAs_number {v : Value} {q : ℚ} (h : v.number? = some q) : KeyedAs v q := by
  cases v with
  | null | bool | text => cases h
  | int i =>
    cases h
    refine .whole i.toInt ?_
    rw [nearestInt64_toInt]
    rfl
  | float x =>
    rw [number?] at h
    split_ifs at h with hfinite
    cases h
    by_cases hdvd : Binary64.one ∣ x.units
    · have hwhole : x.isWhole = true := Binary64.isWhole_iff.mpr ⟨hfinite, hdvd⟩
      rw [Binary64.toRat_of_whole hdvd]
      refine .whole x.truncate ?_
      rw [keyText, if_pos hwhole, Binary64.toInt_toInt64]
    · have hwhole : ¬ x.isWhole = true := fun h => hdvd (Binary64.isWhole_iff.mp h).2
      exact .fraction hfinite hdvd (if_neg hwhole)

/-- A whole number and a fraction have neither one text nor the same nearest number. -/
theorem keyText_ne_of_whole_of_fraction {v : Value} {n : Int} {x : Binary64}
    (hv : v.keyText = toString (nearestInt64 n)) (hfinite : x.isFinite = true)
    (hfraction : ¬ Binary64.one ∣ x.units) :
    v.keyText ≠ x.toText ∧ nearestInRange n ≠ nearestInRange x.toRat := by
  constructor
  · intro h
    refine Text.point_notMem_toString_int (nearestInt64 n) ?_
    rw [← hv, h]
    exact Binary64.point_mem_toText hfinite hfraction
  · rw [nearestInRange_intCast, Binary64.nearestInRange_of_fraction hfraction]
    exact (Binary64.toRat_ne_intCast hfraction _).symm

/-- Numbers have one text if the nearest numbers within the range of the integers are equal. -/
theorem KeyedAs.keyText_eq_iff {v w : Value} {a b : ℚ} (hv : KeyedAs v a) (hw : KeyedAs w b) :
    v.keyText = w.keyText ↔ nearestInRange a = nearestInRange b := by
  cases hv with
  | whole m hm =>
    cases hw with
    | whole n hn =>
      rw [hm, hn, Text.toString_int_inj, nearestInRange_intCast, nearestInRange_intCast,
        Int.cast_inj]
    | fraction hfinite hfraction hy =>
      obtain ⟨htext, hnumber⟩ := keyText_ne_of_whole_of_fraction hm hfinite hfraction
      rw [hy]
      exact iff_of_false htext hnumber
  | fraction hfinite hfraction hx =>
    cases hw with
    | whole n hn =>
      obtain ⟨htext, hnumber⟩ := keyText_ne_of_whole_of_fraction hn hfinite hfraction
      rw [hx]
      exact iff_of_false htext.symm hnumber.symm
    | fraction hfinite' hfraction' hy =>
      rw [hx, hy, Binary64.nearestInRange_of_fraction hfraction,
        Binary64.nearestInRange_of_fraction hfraction']
      constructor
      · intro h
        obtain ⟨hsign, hindex⟩ := Binary64.eq_of_toText_eq hfinite hfinite' hfraction hfraction' h
        rw [Binary64.eq_of_index_eq hsign hindex]
      · intro h
        rw [Binary64.eq_of_toRat_eq hfraction h]

/-- What counts of a number as a key. -/
def keyNumber? (v : Value) : Option ℚ := v.number?.map nearestInRange

theorem keyText_eq_iff_keyNumber? {v w : Value} (hv : v.number?.isSome) (hw : w.number?.isSome) :
    v.keyText = w.keyText ↔ v.keyNumber? = w.keyNumber? := by
  obtain ⟨a, ha⟩ := Option.isSome_iff_exists.mp hv
  obtain ⟨b, hb⟩ := Option.isSome_iff_exists.mp hw
  rw [keyNumber?, keyNumber?, ha, hb, Option.map_some, Option.map_some, Option.some.injEq]
  exact (keyedAs_number ha).keyText_eq_iff (keyedAs_number hb)

end Value

/-- Pairs with one value for every number among the keys: the one that came last with it. -/
structure FoldedByNumber (entries : List (Value × Value)) (pairs : Row) : Prop where
  size : pairs.size = (entries.map (·.1.keyNumber?)).eraseDups.length
  get? : ∀ e ∈ entries, pairs.get? e.1.keyText =
    (entries.reverse.find? fun e' => e'.1.keyNumber? = e.1.keyNumber?).map (·.2)

theorem FoldedInto.byNumber {entries : List (Value × Value)} {pairs : Row}
    (h : FoldedInto entries pairs) (hnumbers : ∀ e ∈ entries, e.1.number?.isSome) :
    FoldedByNumber entries pairs where
  size := by
    have hcolumns : pairs.size = (entries.map (·.1.keyText)).eraseDups.length := by
      rw [← h.columns, Row.columns, List.length_map, Row.size]
    rw [hcolumns]
    exact length_eraseDups_map entries fun e he e' he' =>
      Value.keyText_eq_iff_keyNumber? (hnumbers e he) (hnumbers e' he')
  get? e he := by
    rw [h.get?]
    congr 1
    refine List.find?_congr fun e' he' => ?_
    have hiff := Value.keyText_eq_iff_keyNumber? (hnumbers e' (List.mem_reverse.mp he'))
      (hnumbers e he)
    rw [Bool.eq_iff_iff, beq_iff_eq, decide_eq_true_eq]
    exact hiff

namespace Model
variable {σ : Type}

/-- As keys numbers are merged if they are equal, and within the range of the integers of 64 bits
only then. Beyond the range the nearest integer stands for a number. -/
theorem numeric_keys_merged (m : Model σ) (p : FetchParams) :
    (∀ {v w : Value} {a b : ℚ}, v.number? = some a → w.number? = some b →
      (v.keyText = w.keyText ↔ nearestInRange a = nearestInRange b) ∧
      (IsInRange a → IsInRange b → (v.keyText = w.keyText ↔ a = b))) ∧
    Action.Makes (m.fetchPairs p) (m.recorded.fetchPairs p) fun calls result =>
      ∀ {statement rows entries}, calls = [.query statement (.ok rows)] →
        LeadingEntries rows entries → (∀ e ∈ entries, e.1.number?.isSome) →
        ∃ pairs, result = .ok pairs ∧ FoldedByNumber entries pairs := by
  refine ⟨?_, (m.makes_fetchPairs p).mono ?_⟩
  · intro v w a b hv hw
    have hiff := (Value.keyedAs_number hv).keyText_eq_iff (Value.keyedAs_number hw)
    refine ⟨hiff, fun ha hb => ?_⟩
    rw [hiff, nearestInRange_eq_self ha, nearestInRange_eq_self hb]
  · rintro calls result hfetched statement rows entries rfl hentries hnumbers
    cases hfetched with
    | tooShort _ _ hshort =>
      obtain ⟨row, hrow, hsize⟩ := hshort
      have hleast := hentries.two_le_size row hrow
      omega
    | folded _ _ hfolded hpairs =>
      obtain rfl := hentries.unique hfolded
      exact ⟨_, rfl, hpairs.byNumber hnumbers⟩

/-- Rows with a size and a price, the sizes being integers and floating-point numbers. -/
def priceRows : List Row :=
  [{ entries := [("size", .int 3), ("price", .text "low")] },
    { entries := [("size", .float (Binary64.ofRatio false 1 2)), ("price", .text "lowest")] },
    { entries := [("size", .float (Binary64.ofInt 3)), ("price", .text "high")] }]

/-- A model of prices on a connection that answers every query with the same rows. -/
def prices : Model Unit where
  config := { tableName := "prices", primaryColumn := "size" }
  schema := ⟨"prices", [.ofType "size" "double"], "size"⟩
  gateway := .ofConnection {
    dialect := .postgres
    query := fun _ _ _ => (.ok priceRows, ())
    execute := fun _ _ _ => (.ok 0, ())
    lastKey := fun _ _ => (.ok none, ()) }

theorem numeric_keys_merged_prices :
    Value.keyText (.int 3) = Value.keyText (.float (Binary64.ofInt 3)) ∧
      ∃ pairs, ((prices.fetchPairs { columns := some ["size", "price"] }).run ⟨(), []⟩).1 =
          .ok pairs ∧
        pairs.size = 2 ∧ pairs.get? (Value.keyText (.int 3)) = some (.text "high") := by
  obtain ⟨hkeys, hmakes⟩ := numeric_keys_merged prices { columns := some ["size", "price"] }
  have hthree : Value.number? (.int 3) = some 3 ∧
      Value.number? (.float (Binary64.ofInt 3)) = some 3 := by
    decide +kernel
  obtain ⟨-, hinRange⟩ := hkeys hthree.1 hthree.2
  refine ⟨(hinRange (by decide +kernel) (by decide +kernel)).mpr rfl, ?_⟩
  obtain ⟨-, hfolds⟩ := hmakes.callsIn ⟨(), []⟩
  have hcalls : (prices.recorded.fetchPairs { columns := some ["size", "price"] }).callsIn
      ⟨(), []⟩ = [.query ⟨"SELECT size, price FROM prices", []⟩ (.ok priceRows)] := rfl
  have hentries : LeadingEntries priceRows
      [(.int 3, .text "low"), (.float (Binary64.ofRatio false 1 2), .text "lowest"),
        (.float (Binary64.ofInt 3), .text "high")] :=
    .cons ⟨[], rfl⟩ (.cons ⟨[], rfl⟩ (.cons ⟨[], rfl⟩ .nil))
  obtain ⟨pairs, hpairs, hsize, hget⟩ := hfolds hcalls hentries (by decide +kernel)
  refine ⟨pairs, hpairs, ?_, ?_⟩
  · rw [hsize]
    decide +kernel
  · rw [hget _ List.mem_cons_self]
    decide +kernel

end Model

/-- Beyond the range different numbers have one text as keys. -/
theorem Value.numeric_keys_merged_beyond_range :
    Value.number? (.int Int64.maxValue) = some (2 ^ 63 - 1) ∧
      Value.number? (.float (Binary64.ofInt (2 ^ 63))) = some (2 ^ 63) ∧
      Value.keyText (.int Int64.maxValue) = Value.keyText (.float (Binary64.ofInt (2 ^ 63))) := by
  decide +kernel

end TableAccess
