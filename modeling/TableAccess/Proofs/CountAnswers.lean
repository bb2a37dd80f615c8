import Mathlib.Tactic.SplitIfs
import TableAccess.Proofs.DecimalTexts
import TableAccess.Proofs.NumberKeys
import TableAccess.Write

/-!
# What counts as a count

A count that stands in front of a mutation is a value from a connection, which may be null, a
number of either type or a text. Within the range of the integers of 64 bits it is read as the
number that it is, so that rows are never taken for no rows, and nothing else is read as a number.
-/
namespace TableAccess

theorem Text.readInt64?_eq_some {s : String} {n : Int64} :
    readInt64? s = some n ↔ readInteger? s = some n.toInt := by
  have hmin : Int64.minValue.toInt = -2 ^ 63 := rfl
  have hmax : Int64.maxValue.toInt = 2 ^ 63 - 1 := rfl
  have hlo := n.le_toInt
  have hhi := n.toInt_lt
  rw [readInt64?]
  cases readInteger? s with
  | none => simp
  | some i =>
    simp only [Option.bind_some, Option.some.injEq]
    split_ifs with hi
    · constructor
      · intro h
        rw [← Option.some.inj h, Int64.toInt_ofInt_of_le (by omega) (by omega)]
      · rintro rfl
        rw [Int64.ofInt_toInt]
    · constructor
      · intro h
        cases h
      · intro h
        omega

namespace Value

/-- A value that stands for a number of rows: null stands for none, and a number or a text for
the number that it denotes. -/
inductive IsCount : Value → Nat → Prop
  | null : IsCount .null 0
  | number {v : Value} {n : Nat} (h : v.number? = some (n : ℚ)) : IsCount v n
  | text {s : String} {n : Nat} (h : Text.Denotes (Text.trim s) n) : IsCount (.text s) n

/-- A value that stands for no number of rows. -/
inductive IsNoCount : Value → Prop
  | bool (b : Bool) : IsNoCount (.bool b)
  | negative {v : Value} {q : ℚ} (h : v.number? = some q) (hq : q < 0) : IsNoCount v
  | fraction {v : Value} {q : ℚ} (h : v.number? = some q) (hq : ∀ n : Int, q ≠ n) : IsNoCount v
  | notFinite {x : Binary64} (h : x.isFinite = false) : IsNoCount (.float x)
  | text {s : String} (h : ∀ n : Nat, n < 2 ^ 63 → ¬ Text.Denotes (Text.trim s) n) :
    IsNoCount (.text s)

variable {v : Value} {q : ℚ}

theorem ne_null_of_number? (h : v.number? = some q) : v ≠ .null := by
  rintro rfl
  cases h

/-- A whole number is read as the nearest integer of 64 bits. -/
theorem asInt64?_of_number {n : Int} (h : v.number? = some (n : ℚ)) :
    ∃ k, v.asInt64? = some k ∧ k.toInt = nearestInt64 n := by
  cases v with
  | null | bool | text => cases h
  | int i =>
    have hi : i.toInt = n := by exact_mod_cast Option.some.inj h
    exact ⟨i, rfl, by rw [← hi, nearestInt64_toInt]⟩
  | float x =>
    rw [number?] at h
    split_ifs at h with hfinite
    have hn : x.toRat = n := Option.some.inj h
    have hdvd : Binary64.one ∣ x.units := by
      by_contra hfraction
      exact Binary64.toRat_ne_intCast hfraction n hn
    have hwhole : x.isWhole = true := Binary64.isWhole_iff.mpr ⟨hfinite, hdvd⟩
    have htruncate : x.truncate = n := by
      rw [Binary64.toRat_of_whole hdvd] at hn
      exact_mod_cast hn
    exact ⟨x.toInt64, by rw [asInt64?, if_pos hwhole], by rw [Binary64.toInt_toInt64, htruncate]⟩

theorem asInt64?_of_fraction (h : v.number? = some q) (hq : ∀ n : Int, q ≠ n) :
    v.asInt64? = none := by
  cases v with
  | null | bool | text => cases h
  | int i => exact absurd (Option.some.inj h).symm (hq i.toInt)
  | float x =>
    rw [number?] at h
    split_ifs at h with hfinite
    have hx : x.toRat = q := Option.some.inj h
    have hwhole : ¬ x.isWhole = true := by
      intro hwhole
      exact hq x.truncate (hx ▸ Binary64.toRat_of_whole (Binary64.isWhole_iff.mp hwhole).2)
    rw [asInt64?, if_neg hwhole]

theorem asInt64?_text {s : String} {k : Int64} :
    (text s).asInt64? = some k ↔ Text.Denotes (Text.trim s) k.toInt := by
  rw [asInt64?, Text.readInt64?_eq_some, Text.readInteger?_eq_some]

theorem asInt64?_of_denotes {s : String} {n : Nat} (h : Text.Denotes (Text.trim s) n)
    (hn : n < 2 ^ 63) : ∃ k, (text s).asInt64? = some k ∧ k.toInt = n := by
  have hk : (Int64.ofInt n).toInt = n := Int64.toInt_ofInt_of_le (by omega) (by omega)
  exact ⟨Int64.ofInt n, asInt64?_text.mpr (by rwa [hk]), hk⟩

theorem nearestInt64_neg_iff {n : Int} : nearestInt64 n < 0 ↔ n < 0 := by
  have hmin : Int64.minValue.toInt = -2 ^ 63 := rfl
  have hmax : Int64.maxValue.toInt = 2 ^ 63 - 1 := rfl
  rw [nearestInt64]
  omega

/-- In range a count is read as what it is, unless it is null. -/
theorem IsCount.asInt64?_eq {n : Nat} (h : IsCount v n) (hn : n < 2 ^ 63) :
    v = .null ∧ n = 0 ∨ ∃ k, v.asInt64? = some k ∧ k.toInt = n := by
  cases h with
  | null => exact .inl ⟨rfl, rfl⟩
  | number h =>
    have hmin : Int64.minValue.toInt = -2 ^ 63 := rfl
    have hmax : Int64.maxValue.toInt = 2 ^ 63 - 1 := rfl
    obtain ⟨k, hk, hnearest⟩ := asInt64?_of_number (n := n) (by exact_mod_cast h)
    refine .inr ⟨k, hk, ?_⟩
    rw [hnearest, nearestInt64]
    omega
  | text h => exact .inr (asInt64?_of_denotes h hn)

theorem isCount_zero_iff : v.IsCount 0 ↔ v = .null ∨ v.number? = some 0 ∨
    ∃ s sign zeros, v = .text s ∧ sign ∈ [[], ['+'], ['-']] ∧
      (Text.trim s).toList = sign ++ List.replicate (zeros + 1) '0' := by
  constructor
  · intro h
    cases h with
    | null => exact .inl rfl
    | number h => exact .inr (.inl (by exact_mod_cast h))
    | text h =>
      obtain ⟨sign, zeros, hs, hsign⟩ := Text.denotes_zero.mp h
      exact .inr (.inr ⟨_, sign, zeros, rfl, hsign, hs⟩)
  · rintro (rfl | h | ⟨s, sign, zeros, rfl, hsign, hs⟩)
    · exact .null
    · exact .number (by exact_mod_cast h)
    · exact .text (Text.denotes_zero.mpr ⟨sign, zeros, hs, hsign⟩)

/-- What is read as an integer from zero on stands for a number of rows, and for none if the
integer is zero. -/
theorem exists_isCount_of_asInt64? {k : Int64} (h : v.asInt64? = some k) (hk : 0 ≤ k.toInt) :
    ∃ n, v.IsCount n ∧ (n = 0 ↔ k.toInt = 0) := by
  have hcast : ((k.toInt.toNat : Int) : ℚ) = k.toInt := by exact_mod_cast Int.toNat_of_nonneg hk
  have hzero : k.toInt.toNat = 0 ↔ k.toInt = 0 := by omega
  cases v with
  | null | bool => cases h
  | int i =>
    obtain rfl : i = k := Option.some.inj h
    refine ⟨i.toInt.toNat, .number ?_, hzero⟩
    rw [number?, ← hcast]
    norm_cast
  | float x =>
    rw [asInt64?] at h
    split_ifs at h with hwhole
    obtain rfl : x.toInt64 = k := Option.some.inj h
    obtain ⟨hfinite, hdvd⟩ := Binary64.isWhole_iff.mp hwhole
    have hmin : Int64.minValue.toInt = -2 ^ 63 := rfl
    have hmax : Int64.maxValue.toInt = 2 ^ 63 - 1 := rfl
    have htoInt : x.toInt64.toInt = nearestInt64 x.truncate := Binary64.toInt_toInt64 x
    rw [nearestInt64] at htoInt
    have htruncate : 0 ≤ x.truncate := by omega
    have hnat : ((x.truncate.toNat : Int) : ℚ) = x.truncate := by
      exact_mod_cast Int.toNat_of_nonneg htruncate
    refine ⟨x.truncate.toNat, .number ?_, by omega⟩
    rw [number?, if_pos hfinite, Binary64.toRat_of_whole hdvd, ← hnat]
    norm_cast
  | text s =>
    have hdenotes := asInt64?_text.mp h
    refine ⟨k.toInt.toNat, .text ?_, hzero⟩
    rwa [Int.toNat_of_nonneg hk]

theorem IsCount.unique {m n : Nat} (hm : v.IsCount m) (hn : v.IsCount n) : m = n := by
  cases hm with
  | null =>
    cases hn with
    | null => rfl
    | number hn => cases hn
  | number hm =>
    cases hn with
    | null => cases hm
    | number hn => exact_mod_cast Option.some.inj (hm.symm.trans hn)
    | text hn => cases hm
  | text hm =>
    cases hn with
    | number hn => cases hn
    | text hn => exact_mod_cast hm.unique hn

/-- A value stands for no count if it is there and has no reading as an integer from zero on. -/
theorem isNoCount_iff :
    v.IsNoCount ↔ v ≠ .null ∧ ∀ k, v.asInt64? = some k → k.toInt < 0 := by
  constructor
  · intro h
    cases h with
    | bool b => simp [asInt64?]
    | negative h hq =>
      rename_i q
      refine ⟨ne_null_of_number? h, fun k hk => ?_⟩
      by_cases hwhole : ∃ n : Int, q = n
      · obtain ⟨n, rfl⟩ := hwhole
        obtain ⟨k', hk', hnearest⟩ := asInt64?_of_number h
        obtain rfl : k' = k := Option.some.inj (hk'.symm.trans hk)
        rw [hnearest, nearestInt64_neg_iff]
        exact_mod_cast hq
      · rw [asInt64?_of_fraction h fun n hn => hwhole ⟨n, hn⟩] at hk
        cases hk
    | fraction h hq =>
      refine ⟨ne_null_of_number? h, fun k hk => ?_⟩
      rw [asInt64?_of_fraction h hq] at hk
      cases hk
    | notFinite h => simp [asInt64?, Binary64.isWhole, h]
    | text h =>
      refine ⟨by simp, fun k hk => ?_⟩
      by_contra hpos
      have hlt := k.toInt_lt
      have hcast : (k.toInt.toNat : Int) = k.toInt := by omega
      refine h k.toInt.toNat (by omega) ?_
      rw [hcast]
      exact asInt64?_text.mp hk
  · rintro ⟨hnull, hneg⟩
    cases v with
    | null => exact absurd rfl hnull
    | bool b => exact .bool b
    | int i => exact .negative (q := i.toInt) rfl (by exact_mod_cast hneg i rfl)
    | float x =>
      cases hfinite : x.isFinite with
      | false => exact .notFinite hfinite
      | true =>
        have hnumber : (float x).number? = some x.toRat := by rw [number?, if_pos hfinite]
        by_cases hwhole : ∃ n : Int, x.toRat = n
        · obtain ⟨n, hn⟩ := hwhole
          obtain ⟨k, hk, hnearest⟩ := asInt64?_of_number (hn ▸ hnumber)
          have hn0 : n < 0 := nearestInt64_neg_iff.mp (hnearest ▸ hneg k hk)
          refine .negative hnumber ?_
          rw [hn]
          exact_mod_cast hn0
        · exact .fraction hnumber fun n hn => hwhole ⟨n, hn⟩
    | text s =>
      refine .text fun n hn hdenotes => ?_
      obtain ⟨k, hk, hkn⟩ := asInt64?_of_denotes hdenotes hn
      have hlt := hneg k hk
      omega

end Value

/-- What is read where the first row has a value. -/
inductive CountRead (label : String) (v : Value) : Except Error Nat → Prop
  | null (h : v = .null) : CountRead label v (.ok 0)
  | number {k : Int64} (h : v.asInt64? = some k) (hk : 0 ≤ k.toInt) :
    CountRead label v (.ok k.toInt.toNat)
  | refused (h : v.IsNoCount) :
    CountRead label v (.error (.decode label s!"not a row count: {v.diagnostic}"))

theorem countRead {row : Row} {label : String} {v : Value} (hv : row.get? label = some v)
    (rest : List Row) : CountRead label v (readCount (row :: rest) label) := by
  by_cases hnull : v = .null
  · have hread : readCount (row :: rest) label = .ok 0 := by simp [readCount, hv, hnull]
    exact hread ▸ .null hnull
  · have hread : readCount (row :: rest) label =
        v.asInt64?.elim (.error (.decode label s!"not a row count: {v.diagnostic}")) fun k =>
          if 0 ≤ k.toInt then .ok k.toInt.toNat
          else .error (.decode label s!"not a row count: {v.diagnostic}") := by
      cases hint : v.asInt64? <;> cases v with
      | null => exact absurd rfl hnull
      | _ => simp [readCount, hv, hint]
    rw [hread]
    cases hint : v.asInt64? with
    | none => exact .refused (Value.isNoCount_iff.mpr ⟨hnull, by simp [hint]⟩)
    | some k =>
      rw [Option.elim_some]
      by_cases hk : 0 ≤ k.toInt
      · rw [if_pos hk]
        exact .number hint hk
      · rw [if_neg hk]
        have hneg : k.toInt < 0 := by omega
        exact .refused (Value.isNoCount_iff.mpr ⟨hnull, by simp [hint, hneg]⟩)

/-- The value of a column in the first of some rows, if there is a row and if it has the column. -/
def firstValue? (rows : List Row) (label : String) : Option (Option Value) :=
  rows.head?.map (·.get? label)

variable {rows rows' : List Row} {label : String} {v : Value}

theorem readCount_of_firstValue? (h : firstValue? rows label = some (some v)) :
    CountRead label v (readCount rows label) := by
  cases rows with
  | nil => cases h
  | cons row rest => exact countRead (Option.some.inj h) rest

theorem readCount_of_missing (h : firstValue? rows label = some none) :
    readCount rows label = .error (.decode label "count column missing from result row") := by
  cases rows with
  | nil => cases h
  | cons row rest =>
    have hv : row.get? label = none := Option.some.inj h
    simp only [readCount, hv]

theorem readCount_of_no_row (h : firstValue? rows label = none) :
    readCount rows label = .ok 0 := by
  cases rows with
  | nil => rfl
  | cons row rest => cases h

/-- In range a count is read as the number that it stands for. -/
theorem readCount_of_isCount (h : firstValue? rows label = some (some v)) {n : Nat}
    (hcount : v.IsCount n) (hn : n < 2 ^ 63) : readCount rows label = .ok n := by
  have hread := readCount_of_firstValue? h
  generalize readCount rows label = result at hread
  have hint := hcount.asInt64?_eq hn
  cases hread with
  | null hnull =>
    subst hnull
    rcases hint with ⟨-, rfl⟩ | ⟨k, hk, -⟩
    · rfl
    · cases hk
  | number hk hpos =>
    rename_i k
    rcases hint with ⟨rfl, -⟩ | ⟨k', hk', hn'⟩
    · cases hk
    · obtain rfl : k' = k := Option.some.inj (hk'.symm.trans hk)
      rw [hn', Int.toNat_natCast]
  | refused hno =>
    obtain ⟨hnull, hneg⟩ := Value.isNoCount_iff.mp hno
    rcases hint with ⟨rfl, -⟩ | ⟨k, hk, hn'⟩
    · exact absurd rfl hnull
    · have hlt := hneg k hk
      omega

/-- What a number of rows is read as depends on the first value alone. -/
theorem readCount_congr (h : firstValue? rows label = firstValue? rows' label) :
    readCount rows label = readCount rows' label := by
  cases rows with
  | nil =>
    cases rows' with
    | nil => rfl
    | cons row rest => cases h
  | cons row rest =>
    cases rows' with
    | nil => cases h
    | cons row' rest' =>
      have hv : row.get? label = row'.get? label := Option.some.inj h
      simp only [readCount, hv]

/-- The rows say that nothing was counted. -/
def NoneCounted (rows : List Row) (label : String) : Prop :=
  rows = [] ∨ ∃ v, firstValue? rows label = some (some v) ∧ v.IsCount 0

/-- The rows say that something was counted. -/
def SomeCounted (rows : List Row) (label : String) : Prop :=
  ∃ v n, firstValue? rows label = some (some v) ∧ v.IsCount n ∧ 0 < n ∧ ¬ v.IsNoCount

/-- The rows do not say what was counted. -/
def NotCounted (rows : List Row) (label : String) : Prop :=
  firstValue? rows label = some none ∨ ∃ v, firstValue? rows label = some (some v) ∧ v.IsNoCount

theorem firstValue?_eq_none : firstValue? rows label = none ↔ rows = [] := by
  rw [firstValue?, Option.map_eq_none_iff, List.head?_eq_none_iff]

theorem readCount_eq_zero_iff : readCount rows label = .ok 0 ↔ NoneCounted rows label := by
  constructor
  · intro hread
    rcases hfirst : firstValue? rows label with _ | _ | v
    · exact .inl (firstValue?_eq_none.mp hfirst)
    · rw [readCount_of_missing hfirst] at hread
      cases hread
    · refine .inr ⟨v, hfirst, ?_⟩
      have hcases := readCount_of_firstValue? hfirst
      generalize hresult : readCount rows label = result at hcases
      cases hcases with
      | null h => exact h ▸ .null
      | number h hpos =>
        have hzero := Except.ok.inj (hresult.symm.trans hread)
        obtain ⟨n, hn, hn0⟩ := Value.exists_isCount_of_asInt64? h hpos
        obtain rfl : n = 0 := hn0.mpr (by omega)
        exact hn
      | refused h => cases hresult.symm.trans hread
  · rintro (rfl | ⟨v, hfirst, hcount⟩)
    · rfl
    · exact readCount_of_isCount hfirst hcount (by decide)

theorem readCount_eq_succ_iff :
    (∃ k, readCount rows label = .ok (k + 1)) ↔ SomeCounted rows label := by
  constructor
  · rintro ⟨k, hread⟩
    rcases hfirst : firstValue? rows label with _ | _ | v
    · cases hread.symm.trans (readCount_of_no_row hfirst)
    · cases hread.symm.trans (readCount_of_missing hfirst)
    · have hcases := readCount_of_firstValue? hfirst
      rw [hread] at hcases
      generalize hresult : (Except.ok (k + 1) : Except Error Nat) = result at hcases
      cases hcases with
      | null h => cases hresult
      | number h hpos =>
        have hsucc := Except.ok.inj hresult
        obtain ⟨n, hn, hn0⟩ := Value.exists_isCount_of_asInt64? h hpos
        have hneg : ¬ v.IsNoCount := fun hno => by
          have hlt := (Value.isNoCount_iff.mp hno).2 _ h
          omega
        exact ⟨v, n, hfirst, hn, by omega, hneg⟩
      | refused h => cases hresult
  · rintro ⟨v, n, hfirst, hcount, hpos, hno⟩
    have hcases := readCount_of_firstValue? hfirst
    generalize readCount rows label = result at hcases
    cases hcases with
    | null h =>
      subst h
      have hzero := hcount.unique .null
      omega
    | number h hk =>
      rename_i k
      obtain ⟨m, hm, hm0⟩ := Value.exists_isCount_of_asInt64? h hk
      have hmn := hm.unique hcount
      exact ⟨k.toInt.toNat - 1, by rw [Nat.sub_add_cancel (by omega)]⟩
    | refused h => exact absurd h hno

/-- What is refused is refused for the column. -/
theorem readCount_eq_error_iff :
    (∃ e, readCount rows label = .error e) ↔ NotCounted rows label := by
  constructor
  · rintro ⟨e, hread⟩
    rcases hfirst : firstValue? rows label with _ | _ | v
    · rw [readCount_of_no_row hfirst] at hread
      cases hread
    · exact .inl hfirst
    · refine .inr ⟨v, hfirst, ?_⟩
      have hcases := readCount_of_firstValue? hfirst
      generalize hresult : readCount rows label = result at hcases
      cases hcases with
      | null h => cases hresult.symm.trans hread
      | number h hpos => cases hresult.symm.trans hread
      | refused h => exact h
  · rintro (hfirst | ⟨v, hfirst, hno⟩)
    · exact ⟨_, readCount_of_missing hfirst⟩
    · have hcases := readCount_of_firstValue? hfirst
      obtain ⟨hnull, hneg⟩ := Value.isNoCount_iff.mp hno
      generalize readCount rows label = result at hcases ⊢
      cases hcases with
      | null h => exact absurd h hnull
      | number h hpos =>
        have hlt := hneg _ h
        omega
      | refused h => exact ⟨_, rfl⟩

/-- An error of the reader is about the column. -/
theorem eq_decode_of_readCount {e : Error} (h : readCount rows label = .error e) :
    ∃ message, e = .decode label message := by
  rcases hfirst : firstValue? rows label with _ | _ | v
  · cases h.symm.trans (readCount_of_no_row hfirst)
  · exact ⟨_, Except.error.inj (h.symm.trans (readCount_of_missing hfirst))⟩
  · have hcases := readCount_of_firstValue? hfirst
    rw [h] at hcases
    cases hcases with
    | refused hno => exact ⟨_, rfl⟩

/-- Zero is read from no row, null, a zero and the texts of zero, and from nothing else. Other
counts in range are read as what they are. What stands for no count fails, and only that. The first
row's value of the column is all that matters. -/
theorem readCount_spec (rows : List Row) (label : String) :
    (readCount rows label = .ok 0 ↔
      rows = [] ∨ ∃ v, firstValue? rows label = some (some v) ∧
        (v = .null ∨ v.number? = some 0 ∨
          ∃ s sign zeros, v = .text s ∧ sign ∈ [[], ['+'], ['-']] ∧
            (Text.trim s).toList = sign ++ List.replicate (zeros + 1) '0')) ∧
    (∀ v n, firstValue? rows label = some (some v) → 1 ≤ n → n ≤ 2 ^ 63 - 1 → v.IsCount n →
      readCount rows label = .ok n) ∧
    ((∃ message, readCount rows label = .error (.decode label message)) ↔
      firstValue? rows label = some none ∨
        ∃ v, firstValue? rows label = some (some v) ∧ v.IsNoCount) ∧
    ∀ rows', firstValue? rows' label = firstValue? rows label →
      readCount rows' label = readCount rows label := by
  refine ⟨?_, ?_, ?_, fun rows' h => readCount_congr h⟩
  · simp only [readCount_eq_zero_iff, NoneCounted, Value.isCount_zero_iff]
  · intro v n hfirst _ hn hcount
    exact readCount_of_isCount hfirst hcount (by omega)
  · refine Iff.trans ⟨?_, ?_⟩ readCount_eq_error_iff
    · rintro ⟨message, h⟩
      exact ⟨_, h⟩
    · rintro ⟨e, h⟩
      obtain ⟨message, rfl⟩ := eq_decode_of_readCount h
      exact ⟨message, h⟩

theorem readCount_spec_padded :
    readCount [Row.empty.set "total" (.text " +007 "), Row.empty.set "total" (.int 3)] "total" =
        .ok 7 ∧
      readCount [{ entries := [("id", .int 5), ("total", .text " +007 ")] }] "total" = .ok 7 := by
  obtain ⟨-, hcount, -, hcongr⟩ := readCount_spec
    [Row.empty.set "total" (.text " +007 "), Row.empty.set "total" (.int 3)] "total"
  have hdenotes : Text.Denotes (Text.trim " +007 ") (7 : Nat) :=
    ⟨['+'], ['0', '0', '7'], by decide +kernel, ⟨2, by decide +kernel⟩, .inl ⟨.inr rfl, by decide⟩⟩
  have hseven := hcount (.text " +007 ") 7 rfl (by decide) (by decide) (.text hdenotes)
  exact ⟨hseven, (hcongr _ rfl).trans hseven⟩

end TableAccess
