import TableAccess.Proofs.Numerals

/-!
# Texts of integers

A text denotes an integer in decimal if it is a sign that may be missing, any number of zeros and
the digits of the integer's size. The readers of integers accept these texts and no others, so
that what they return is settled by the text alone.
-/
namespace TableAccess.Text

/-- Characters that denote a natural number: its digits, with zeros in front. -/
def IsDecimal (cs : List Char) (n : Nat) : Prop :=
  ∃ zeros, cs = List.replicate zeros '0' ++ Nat.toDigits 10 n

/-- A text that denotes an integer. Only what is not positive has a minus sign, and only what is
not negative goes without one. -/
def Denotes (s : String) (i : Int) : Prop :=
  ∃ sign digits, s.toList = sign ++ digits ∧ IsDecimal digits i.natAbs ∧
    ((sign = [] ∨ sign = ['+']) ∧ 0 ≤ i ∨ sign = ['-'] ∧ i ≤ 0)

variable {cs ds : List Char} {c : Char} {m n : Nat} {s : String} {i j : Int}

theorem sub_zero_lt (h : c.isDigit = true) : c.toNat - '0'.toNat < 10 := by
  have hle : c.toNat ≤ '9'.toNat := by
    simp only [Char.isDigit, Bool.and_eq_true, decide_eq_true_eq] at h
    exact h.2
  have hzero : '0'.toNat = 48 := rfl
  have hnine : '9'.toNat = 57 := rfl
  omega

theorem toDigits_sub_zero (h : c.isDigit = true) :
    Nat.toDigits 10 (c.toNat - '0'.toNat) = [c] := by
  have hlt := sub_zero_lt h
  have hle : '0'.toNat ≤ c.toNat := by
    simp only [Char.isDigit, Bool.and_eq_true, decide_eq_true_eq] at h
    exact h.1
  have hzero : '0'.toNat = 48 := rfl
  have hchar : Nat.digitChar (c.toNat - '0'.toNat) = c := by
    apply Char.toNat_inj.mp
    rw [Nat.toNat_digitChar_of_lt_ten hlt]
    omega
  rw [Nat.toDigits_of_lt_base hlt, hchar]

namespace IsDecimal

theorem isDigit (h : IsDecimal cs n) : ∀ c ∈ cs, c.isDigit = true := by
  obtain ⟨zeros, rfl⟩ := h
  intro c hc
  rcases List.mem_append.mp hc with hc | hc
  · rw [List.eq_of_mem_replicate hc]
    rfl
  · exact isDigit_of_mem_toDigits hc

theorem ne_nil (h : IsDecimal cs n) : cs ≠ [] := by
  obtain ⟨zeros, rfl⟩ := h
  exact List.append_ne_nil_of_right_ne_nil _ Nat.toDigits_ne_nil

theorem ofDigitChars_eq (h : IsDecimal cs n) : Nat.ofDigitChars 10 cs 0 = n := by
  obtain ⟨zeros, rfl⟩ := h
  rw [Nat.ofDigitChars_append, Nat.ofDigitChars_replicate_zero, Nat.mul_zero,
    Nat.ofDigitChars_ten_toDigits]

/-- One more digit, behind zeros alone or behind the digits of a number. -/
theorem append_digit (h : IsDecimal cs n) (hc : c.isDigit = true) :
    IsDecimal (cs ++ [c]) (10 * n + (c.toNat - '0'.toNat)) := by
  obtain ⟨zeros, rfl⟩ := h
  rcases Nat.eq_zero_or_pos n with rfl | hpos
  · refine ⟨zeros + 1, ?_⟩
    rw [Nat.mul_zero, Nat.zero_add, toDigits_sub_zero hc, List.replicate_succ']
    rfl
  · refine ⟨zeros, ?_⟩
    rw [← Nat.toDigits_append_toDigits (by decide) hpos (sub_zero_lt hc), toDigits_sub_zero hc,
      List.append_assoc]

theorem append (h : IsDecimal cs n) (hds : ∀ c ∈ ds, c.isDigit = true) :
    IsDecimal (cs ++ ds) (Nat.ofDigitChars 10 ds n) := by
  induction ds generalizing cs n with
  | nil => simpa using h
  | cons c ds ih =>
    have hc := h.append_digit (hds c List.mem_cons_self)
    have hrest := ih hc fun x hx => hds x (List.mem_cons_of_mem c hx)
    rwa [List.append_assoc, ← Nat.ofDigitChars_cons] at hrest

end IsDecimal

theorem isDecimal_ofDigitChars (hne : cs ≠ []) (h : ∀ c ∈ cs, c.isDigit = true) :
    IsDecimal cs (Nat.ofDigitChars 10 cs 0) := by
  cases cs with
  | nil => exact absurd rfl hne
  | cons c cs =>
    have hc : IsDecimal [c] (c.toNat - '0'.toNat) :=
      ⟨0, (toDigits_sub_zero (h c List.mem_cons_self)).symm⟩
    have hall := hc.append fun x hx => h x (List.mem_cons_of_mem c hx)
    rwa [Nat.ofDigitChars_cons, Nat.mul_zero, Nat.zero_add]

theorem isDigit_of_digit? {d : Nat} (h : digit? c = some d) : c.isDigit = true := by
  rw [digit?] at h
  split at h
  · next hrange => simpa [Char.isDigit, Char.le_def] using hrange
  · cases h

theorem isDigit_of_mapM_digit? {ns : List Nat} (h : cs.mapM digit? = some ns) :
    ∀ c ∈ cs, c.isDigit = true := by
  induction cs generalizing ns with
  | nil => simp
  | cons c cs ih =>
    simp only [List.mapM_cons, bind, Option.bind_eq_some_iff] at h
    obtain ⟨d, hd, ds, hds, -⟩ := h
    exact List.forall_mem_cons.mpr ⟨isDigit_of_digit? hd, ih hds⟩

theorem readDigits?_eq_some : readDigits? cs = some n ↔ IsDecimal cs n := by
  constructor
  · intro h
    cases cs with
    | nil => cases h
    | cons c cs =>
      have hmap : ((c :: cs).mapM digit?).map ofDigits = some n := h
      obtain ⟨ns, hns, -⟩ := Option.map_eq_some_iff.mp hmap
      have hdigits := isDigit_of_mapM_digit? hns
      rw [readDigits?_eq (List.cons_ne_nil c cs) hdigits, Option.some.injEq] at h
      exact h ▸ isDecimal_ofDigitChars (List.cons_ne_nil c cs) hdigits
  · intro h
    rw [readDigits?_eq h.ne_nil h.isDigit, h.ofDigitChars_eq]

/-- A decimal starts with a digit, so nothing of it is taken for a sign. -/
theorem IsDecimal.ne_sign (h : IsDecimal cs n) :
    (∀ ds, cs = '-' :: ds → False) ∧ ∀ ds, cs = '+' :: ds → False := by
  constructor
  all_goals
    rintro ds rfl
    have hdigit := h.isDigit _ List.mem_cons_self
    simp at hdigit

theorem readInteger?_of_minus (hs : s.toList = '-' :: ds) :
    readInteger? s = (readDigits? ds).map fun n => -Int.ofNat n := by
  rw [readInteger?, hs]
  cases h : readDigits? ds <;> simp [h]

theorem readInteger?_of_plus (hs : s.toList = '+' :: ds) :
    readInteger? s = (readDigits? ds).map Int.ofNat := by
  simp [readInteger?, hs]

theorem readInteger?_of_unsigned (hminus : ∀ ds, s.toList = '-' :: ds → False)
    (hplus : ∀ ds, s.toList = '+' :: ds → False) :
    readInteger? s = (readDigits? s.toList).map Int.ofNat := by
  rw [readInteger?]
  split
  · next ds hs => exact (hminus ds hs).elim
  · next ds hs => exact (hplus ds hs).elim
  · rfl

theorem denotes_of_readInteger? (h : readInteger? s = some i) : Denotes s i := by
  by_cases hminus : ∃ ds, s.toList = '-' :: ds
  · obtain ⟨ds, hs⟩ := hminus
    rw [readInteger?_of_minus hs] at h
    obtain ⟨n, hn, rfl⟩ := Option.map_eq_some_iff.mp h
    refine ⟨['-'], ds, hs, ?_, .inr ⟨rfl, Int.neg_nonpos_of_nonneg (Int.natCast_nonneg n)⟩⟩
    rw [Int.natAbs_neg]
    exact readDigits?_eq_some.mp hn
  by_cases hplus : ∃ ds, s.toList = '+' :: ds
  · obtain ⟨ds, hs⟩ := hplus
    rw [readInteger?_of_plus hs] at h
    obtain ⟨n, hn, rfl⟩ := Option.map_eq_some_iff.mp h
    exact ⟨['+'], ds, hs, readDigits?_eq_some.mp hn, .inl ⟨.inr rfl, Int.natCast_nonneg n⟩⟩
  · rw [readInteger?_of_unsigned (fun ds hs => hminus ⟨ds, hs⟩) fun ds hs => hplus ⟨ds, hs⟩] at h
    obtain ⟨n, hn, rfl⟩ := Option.map_eq_some_iff.mp h
    exact ⟨[], s.toList, rfl, readDigits?_eq_some.mp hn, .inl ⟨.inl rfl, Int.natCast_nonneg n⟩⟩

/-- The reader of integers accepts the texts of integers and no others. -/
theorem readInteger?_eq_some : readInteger? s = some i ↔ Denotes s i := by
  refine ⟨denotes_of_readInteger?, ?_⟩
  rintro ⟨sign, digits, hs, hdigits, ⟨rfl | rfl, hi⟩ | ⟨rfl, hi⟩⟩
  · have hlist : s.toList = digits := hs
    obtain ⟨hminus, hplus⟩ := hdigits.ne_sign
    rw [readInteger?_of_unsigned (hlist ▸ hminus) (hlist ▸ hplus), hlist,
      readDigits?_eq_some.mpr hdigits]
    exact congrArg some (Int.natAbs_of_nonneg hi)
  · have hlist : s.toList = '+' :: digits := hs
    rw [readInteger?_of_plus hlist, readDigits?_eq_some.mpr hdigits]
    exact congrArg some (Int.natAbs_of_nonneg hi)
  · have hlist : s.toList = '-' :: digits := hs
    rw [readInteger?_of_minus hlist, readDigits?_eq_some.mpr hdigits]
    have hneg : -(i.natAbs : Int) = i := by omega
    exact congrArg some hneg

theorem readNatural?_of_plus (hs : s.toList = '+' :: ds) : readNatural? s = readDigits? ds := by
  simp [readNatural?, hs]

theorem readNatural?_of_unsigned (h : ∀ ds, s.toList = '+' :: ds → False) :
    readNatural? s = readDigits? s.toList := by
  rw [readNatural?]
  split
  · next ds hs => exact (h ds hs).elim
  · rfl

/-- The reader of natural numbers accepts the texts of integers that have no minus sign. -/
theorem readNatural?_eq_some : readNatural? s = some n ↔
    ∃ sign digits, s.toList = sign ++ digits ∧ sign ∈ [[], ['+']] ∧ IsDecimal digits n := by
  constructor
  · intro h
    by_cases hplus : ∃ ds, s.toList = '+' :: ds
    · obtain ⟨ds, hs⟩ := hplus
      rw [readNatural?_of_plus hs] at h
      exact ⟨['+'], ds, hs, by simp, readDigits?_eq_some.mp h⟩
    · rw [readNatural?_of_unsigned fun ds hs => hplus ⟨ds, hs⟩] at h
      exact ⟨[], s.toList, rfl, by simp, readDigits?_eq_some.mp h⟩
  · rintro ⟨sign, digits, hs, hsign, hdigits⟩
    rcases List.mem_pair.mp hsign with rfl | rfl
    · have hlist : s.toList = digits := hs
      rw [readNatural?_of_unsigned (hlist ▸ hdigits.ne_sign.2), hlist]
      exact readDigits?_eq_some.mpr hdigits
    · rw [readNatural?_of_plus hs]
      exact readDigits?_eq_some.mpr hdigits

theorem denotes_of_readNatural? (h : readNatural? s = some n) : Denotes s n := by
  obtain ⟨sign, digits, hs, hsign, hdigits⟩ := readNatural?_eq_some.mp h
  exact ⟨sign, digits, hs, hdigits, .inl ⟨List.mem_pair.mp hsign, Int.natCast_nonneg n⟩⟩

theorem readNatural?_of_denotes (h : Denotes s i) (hi : 0 < i) :
    readNatural? s = some i.natAbs := by
  obtain ⟨sign, digits, hs, hdigits, ⟨hsign, -⟩ | ⟨-, hneg⟩⟩ := h
  · exact readNatural?_eq_some.mpr ⟨sign, digits, hs, List.mem_pair.mpr hsign, hdigits⟩
  · omega

/-- The texts of zero are the runs of zeros, with either sign or none. -/
theorem denotes_zero : Denotes s 0 ↔ ∃ sign zeros,
    s.toList = sign ++ List.replicate (zeros + 1) '0' ∧ sign ∈ [[], ['+'], ['-']] := by
  have hdigits : ∀ zeros, List.replicate zeros '0' ++ Nat.toDigits 10 (Int.natAbs 0) =
      List.replicate (zeros + 1) '0' := fun zeros => List.replicate_succ'.symm
  constructor
  · rintro ⟨sign, digits, hs, ⟨zeros, rfl⟩, hsign⟩
    refine ⟨sign, zeros, by rw [hs, hdigits], ?_⟩
    simpa [or_assoc] using hsign
  · rintro ⟨sign, zeros, hs, hsign⟩
    refine ⟨sign, _, hs, ⟨zeros, (hdigits zeros).symm⟩, ?_⟩
    simpa [or_assoc] using hsign

/-- A text denotes at most one integer. -/
theorem Denotes.unique (hi : Denotes s i) (hj : Denotes s j) : i = j := by
  rw [← readInteger?_eq_some] at hi hj
  exact Option.some.inj (hi.symm.trans hj)

end TableAccess.Text
