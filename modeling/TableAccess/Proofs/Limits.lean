import TableAccess.Proofs.ErrorOrder
import TableAccess.Proofs.Paging
import TableAccess.Proofs.SelectionParts

/-!
# Limits from untyped data

A limit is given as a number or as a text, and a text that is no word of 64 bits is read as a
floating-point number, as is a literal of a document with too many digits. Rounding does not take
such a number below the power of two that it reaches, so an integer is either the limit itself or
too large for one, whichever way it is read.
-/
namespace TableAccess

namespace Binary64
open Number
variable {x : Binary64}

theorem units_neg (x : Binary64) : x.neg.units = x.units := rfl

end Binary64

namespace FetchParams
open Number
variable {x : Binary64}

/-- A number that is not below `2 ^ 63` is no limit. -/
theorem limitOfFloat?_of_le (h : 2 ^ 63 * Binary64.one ≤ x.units) : limitOfFloat? x = none := by
  by_contra hne
  exact absurd (limitOfFloat?_ne_none.mp hne).1 (Nat.not_lt.mpr h)

/-- A number below zero is no limit. -/
theorem limitOfFloat?_of_negative (h : x.negative = true) (hx : 0 < x.units) :
    limitOfFloat? x = none := by
  by_contra hne
  exact absurd ((limitOfFloat?_ne_none.mp hne).2 h) hx.ne'

end FetchParams

namespace Json
open Number FetchParams

/-- The integer that a literal without point and exponent denotes. -/
def Literal.integer (l : Literal) : Int :=
  if l.negative then -(Text.ofDigits l.whole : Int) else Text.ofDigits l.whole

/-- A literal without point and exponent. -/
def Literal.IsWhole (l : Literal) : Prop := l.fraction = none ∧ l.exponent = none

/-- Data that stand for an integer: a literal of a document without point and exponent, however
long it is, or the text of an integer between blanks. -/
inductive IsInteger : Json → Int → Prop
  | int (i : Integer) : IsInteger (.int i) i.val
  | literal {l : Literal} {x : Numeric} (hdigits : ∀ d ∈ l.whole, d < 10)
      (hfraction : l.fraction = none) (hexponent : l.exponent = none) (hx : l.value? = some x) :
      IsInteger (ofNumeric x) l.integer
  | text {s : String} {i : Int} (h : Text.Denotes (Text.trim s) i) : IsInteger (.string s) i

/-- Data that stand for no number. -/
inductive IsNoNumber : Json → Prop
  | null : IsNoNumber .null
  | bool (b : Bool) : IsNoNumber (.bool b)
  | array (items : List Json) : IsNoNumber (.array items)
  | object (members : List (String × Json)) : IsNoNumber (.object members)
  | string {s : String} (h : ¬ Text.IsNumeral (Text.trim s)) : IsNoNumber (.string s)

section Literals
variable {l : Literal} {s : Nat} {ds : List Nat}

/-- Digits are left only where they make the number too large for a word, and then what was
absorbed is large. -/
theorem absorb_spec (hs : s ≤ maxWord) (hds : ∀ d ∈ ds, d < 10) :
    let n := ds.foldl (fun n d => n * 10 + d) s
    absorb s ds = (n, 0) ∧ n ≤ maxWord ∨
      2 ^ 60 ≤ (absorb s ds).1 ∧ 0 < (absorb s ds).2 ∧ maxWord < n := by
  induction ds generalizing s with
  | nil => exact .inl ⟨rfl, hs⟩
  | cons d ds ih =>
    obtain ⟨hd, hrest⟩ := List.forall_mem_cons.mp hds
    rw [List.foldl_cons, absorb]
    split_ifs with hword
    · exact ih hword hrest
    · -- No further digit is taken, and those that are left only make the number larger.
      have hgrows : ∀ (ds : List Nat) (m : Nat), m ≤ ds.foldl (fun n d => n * 10 + d) m := by
        intro ds
        induction ds with
        | nil => exact fun m => Nat.le_refl m
        | cons d ds ih => exact fun m => Nat.le_trans (by omega) (ih (m * 10 + d))
      have hmax : maxWord = 2 ^ 64 - 1 := rfl
      refine .inr ⟨?_, Nat.succ_pos _, Nat.lt_of_lt_of_le (Nat.lt_of_not_le hword) (hgrows ds _)⟩
      dsimp only
      omega

theorem absorb_whole (h : ∀ d ∈ ds, d < 10) :
    absorb 0 ds = (Text.ofDigits ds, 0) ∧ Text.ofDigits ds ≤ maxWord ∨
      2 ^ 60 ≤ (absorb 0 ds).1 ∧ 0 < (absorb 0 ds).2 ∧ maxWord < Text.ofDigits ds :=
  absorb_spec (Nat.zero_le maxWord) h

/-- A product is no less than the product of powers of two that its factors reach. -/
theorem le_units_mul {x y : Binary64} {m k n : Nat} (hx : 2 ^ m * Binary64.one ≤ x.units)
    (hy : 2 ^ k * Binary64.one ≤ y.units) (hmk : m + k = n) (hn : n < 1024) :
    2 ^ n * Binary64.one ≤ (x.mul y).units := by
  subst hmk
  have hratio : 2 ^ (m + k) * (Binary64.one * Binary64.one) ≤ x.units * y.units := by
    calc 2 ^ (m + k) * (Binary64.one * Binary64.one)
        = 2 ^ m * Binary64.one * (2 ^ k * Binary64.one) := by
          rw [Nat.pow_add, Nat.mul_mul_mul_comm]
      _ ≤ x.units * y.units := Nat.mul_le_mul hx hy
  have hunits : _ ≤ (x.mul y).units :=
    Binary64.le_units_ofRatio (Nat.mul_pos Binary64.one_pos Binary64.one_pos) hratio hn
  rwa [Binary64.two_pow_add_unitBits] at hunits

theorem le_units_scaled? {m k n left : Nat} {y : Binary64} (hm : 2 ^ m ≤ s)
    (hk : 2 ^ k * Binary64.one ≤ (power left).units) (hmk : m + k = n) (hn : n < 1024)
    (h : scaled? s left = some y) : y.negative = false ∧ 2 ^ n * Binary64.one ≤ y.units := by
  have hx : 2 ^ m * Binary64.one ≤ (Binary64.ofRatio false s 1).units :=
    Binary64.le_units_ofRatio_one hm (by omega)
  simp only [scaled?] at h
  split_ifs at h with hnegative hlarge hzero hfinite
  · omega
  · rw [Binary64.isZero_iff.mp hzero] at hx
    have hpos := Nat.mul_pos (Nat.two_pow_pos m) Binary64.one_pos
    omega
  · cases h
    exact ⟨rfl, le_units_mul hx hk hmk hn⟩

/-- A literal without point and exponent is an integer if that fits, unless it is zero with a
sign. -/
theorem Literal.int?_of_isWhole (h : l.IsWhole) :
    l.int? = if l.negative ∧ l.integer = 0 then none else Integer.ofInt? l.integer := by
  simp only [int?, h.1, h.2, Option.isSome_none, Bool.or_self, Bool.false_eq_true, if_false,
    integer]
  by_cases hnegative : l.negative = true
  · by_cases hpos : 0 < Text.ofDigits l.whole
    · simp [hnegative, hpos, hpos.ne']
    · simp [hnegative, Nat.eq_zero_of_not_pos hpos]
  · simp [hnegative]

theorem Literal.int?_eq_some {i : Integer} (h : l.IsWhole) :
    l.int? = some i ↔ i.val = l.integer ∧ (l.negative = true → l.integer ≠ 0) := by
  rw [int?_of_isWhole h, ← Integer.ofInt?_eq_some]
  split_ifs with hzero
  · simp [hzero]
  · simpa using fun _ hnegative hinteger => hzero ⟨hnegative, hinteger⟩

theorem Literal.int?_eq_none (h : l.IsWhole) : l.int? = none ↔
    l.negative = true ∧ l.integer = 0 ∨ l.integer < -2 ^ 63 ∨ 2 ^ 64 ≤ l.integer := by
  rw [int?_of_isWhole h, ← Integer.ofInt?_eq_none]
  split_ifs with hzero
  · simp [hzero]
  · simp [hzero]

theorem Literal.exists_of_float? {x : FiniteFloat} (h : l.float? = some x) :
    ∃ y, scaled? l.significand.1 (l.significand.2 + l.written) = some y ∧
      x.val = if l.negative then y.neg else y := by
  obtain ⟨y, -, hy, rfl⟩ := Option.pmap_eq_some_iff.mp h
  exact ⟨y, hy, rfl⟩

/-- An integer literal is read as its integer, or it is scaled if that does not fit a word. -/
theorem value?_cases {x : Numeric} (h : l.IsWhole) (hx : l.value? = some x) :
    (∃ i : Integer, i.val = l.integer ∧ x = .int i) ∨
      (l.negative = true ∧ l.integer = 0 ∨ l.integer < -2 ^ 63 ∨ 2 ^ 64 ≤ l.integer) ∧
      ∃ (y : Binary64) (z : FiniteFloat),
        scaled? (absorb 0 l.whole).1 (absorb 0 l.whole).2 = some y ∧
        z.val = (if l.negative then y.neg else y) ∧ x = .float z := by
  simp only [Literal.value?] at hx
  split at hx
  · next i hint =>
    cases hx
    exact .inl ⟨i, ((Literal.int?_eq_some h).mp hint).1, rfl⟩
  · next hint =>
    obtain ⟨z, hz, rfl⟩ := Option.map_eq_some_iff.mp hx
    obtain ⟨y, hy, hval⟩ := Literal.exists_of_float? hz
    refine .inr ⟨(Literal.int?_eq_none h).mp hint, y, z, ?_, hval, rfl⟩
    simpa [Literal.significand, Literal.written, h.1, h.2, absorb] using hy

/-- A literal of zeros with a sign is read as zero. -/
theorem limitOfFloat?_scaled?_zero {y : Binary64} (h : scaled? 0 (0 : Nat) = some y) :
    limitOfFloat? y.neg = some 0 := by
  have hy : scaled? 0 (0 : Nat) = some .zero := by decide +kernel
  rw [hy] at h
  cases h
  decide +kernel

/-- What does not fit a word with its digits left out is too large for a limit. -/
theorem limitOfFloat?_scaled?_large {left : Nat} {y : Binary64} (hs : 2 ^ 60 ≤ s) (hleft : 0 < left)
    (h : scaled? s left = some y) : limitOfFloat? y = none := by
  obtain ⟨-, hunits⟩ :=
    le_units_scaled? (n := 63) hs (le_units_power_of_pos hleft) rfl (by decide) h
  exact limitOfFloat?_of_le hunits

/-- A large literal with a sign is below zero. -/
theorem limitOfFloat?_scaled?_neg {left : Nat} {y : Binary64} (hs : 2 ^ 60 ≤ s)
    (h : scaled? s left = some y) : limitOfFloat? y.neg = none := by
  obtain ⟨hpositive, hunits⟩ :=
    le_units_scaled? (n := 60) hs (le_units_power left) rfl (by decide) h
  have hpos : 0 < 2 ^ 60 * Binary64.one := Nat.mul_pos (by decide) Binary64.one_pos
  have hunits' : 0 < y.neg.units := Binary64.units_neg y ▸ Nat.lt_of_lt_of_le hpos hunits
  exact limitOfFloat?_of_negative (by rw [Binary64.neg, hpositive]; rfl) hunits'

/-- An integer literal is a limit if its integer is one. -/
theorem limit?_of_literal {x : Numeric} (hdigits : ∀ d ∈ l.whole, d < 10) (h : l.IsWhole)
    (hx : l.value? = some x) : limit? (ofNumeric x) = limitOfInt? l.integer := by
  have hmax : maxWord = 2 ^ 64 - 1 := rfl
  have hspec := absorb_whole hdigits
  rcases value?_cases h hx with ⟨i, hi, rfl⟩ | ⟨hrange, y, z, hy, hz, rfl⟩
  · rw [← hi]
    rfl
  · change limitOfFloat? z.val = _
    rw [hz]
    rw [Literal.integer] at hrange ⊢
    generalize Text.ofDigits l.whole = n at hspec hrange ⊢
    cases hnegative : l.negative with
    | true =>
      simp only [hnegative, if_true, true_and] at hrange ⊢
      rcases hspec with ⟨habsorb, hword⟩ | ⟨hsignificand, -, hword⟩
      · rw [habsorb] at hy
        rcases Nat.eq_zero_or_pos n with rfl | hpos
        · exact limitOfFloat?_scaled?_zero hy
        · rw [limitOfInt?_eq_none (by omega)]
          exact limitOfFloat?_scaled?_neg (by omega) hy
      · rw [limitOfInt?_eq_none (by omega)]
        exact limitOfFloat?_scaled?_neg hsignificand hy
    | false =>
      simp only [hnegative, Bool.false_eq_true, if_false, false_and, false_or] at hrange ⊢
      rcases hspec with ⟨-, hword⟩ | ⟨hsignificand, hleft, -⟩
      · omega
      · rw [limitOfInt?_eq_none (by omega)]
        exact limitOfFloat?_scaled?_large hsignificand hleft hy

theorem limit?_of_isInteger {j : Json} {i : Int} (h : j.IsInteger i) :
    limit? j = limitOfInt? i := by
  cases h with
  | int i => rfl
  | literal hdigits hfraction hexponent hx =>
    exact limit?_of_literal hdigits ⟨hfraction, hexponent⟩ hx
  | text h => exact limit?_of_denotes h

theorem limit?_of_isNoNumber {j : Json} (h : j.IsNoNumber) : limit? j = none := by
  by_contra hne
  cases limit?_ne_none_iff.mp hne with
  | int | float => cases h
  | integer hs =>
    cases h with
    | string hno => exact hno hs.isNumeral
  | numeral hs =>
    cases h with
    | string hno => exact hno ⟨_, hs⟩

end Literals

end Json

namespace FetchParams
variable {key : ParamKey} {j : Json} {n : Nat}

theorem le_of_limitOfFloat? {x : Binary64} (h : limitOfFloat? x = some n) : n ≤ maxLimit := by
  unfold limitOfFloat? at h
  split_ifs at h
  exact (limitOfNat?_eq_some.mp h).2

theorem le_of_limit? (h : limit? j = some n) : n ≤ maxLimit := by
  cases j with
  | int i =>
    simp only [limit?] at h
    split_ifs at h
    exact (limitOfNat?_eq_some.mp h).2
  | float x => exact le_of_limitOfFloat? h
  | string s =>
    simp only [limit?] at h
    split at h
    · exact (limitOfNat?_eq_some.mp h).2
    · obtain ⟨x, -, hx⟩ := Option.bind_eq_some_iff.mp h
      exact le_of_limitOfFloat? hx
  | _ => cases h

theorem limitOfJson_eq_ok : limitOfJson key j = .ok n ↔ limit? j = some n := by
  unfold limitOfJson
  cases limit? j <;> simp

theorem exists_error_of_limit? (h : limit? j = none) :
    ∃ e, limitOfJson key j = .error e ∧ e.kind = .badLimitParam := by
  rw [limitOfJson, h]
  exact ⟨_, rfl, rfl⟩

end FetchParams

/-- A number that is written in one of the paging clauses. -/
def Paging.Says (p : Paging) (m : Int) : Prop :=
  p.top? = some m ∨ p.limit? = some m ∨ p.offset? = some m

namespace Sql.Select
variable {s : Select} {n : Nat} {m : Int} {d : Dialect} {limit offset : Option Nat}

theorem number_mem_topTokens (h : .number n ∈ d.topTokens limit offset) : limit = some n := by
  cases limit with
  | none => cases h
  | some k =>
    unfold Dialect.topTokens at h
    split_ifs at h
    · simpa [eq_comm] using h
    · cases h

theorem number_mem_limitTokens (h : .number n ∈ d.limitTokens limit offset) :
    limit = some n := by
  cases limit with
  | none => cases offset <;> cases d <;> simp [Dialect.limitTokens] at h
  | some k => simpa [Dialect.limitTokens, eq_comm] using h

theorem number_mem_offsetTokens (h : .number n ∈ Dialect.offsetTokens offset) :
    offset = some n := by
  cases offset with
  | none => cases h
  | some k => simpa [Dialect.offsetTokens, eq_comm] using h

theorem number_mem_tailTokens {ordered : Bool} (h : .number n ∈ d.tailTokens limit offset ordered) :
    limit = some n ∨ offset = some n := by
  by_cases hd : d = .sqlserver
  · subst hd
    cases offset with
    | none => cases h
    | some k => cases limit <;> cases ordered <;>
        simpa [Dialect.tailTokens, Dialect.anyOrder, eq_comm, or_comm] using h
  · have htail : d.tailTokens limit offset ordered =
        d.limitTokens limit offset ++ Dialect.offsetTokens offset := by
      cases d with
      | sqlserver => exact absurd rfl hd
      | _ => rfl
    rw [htail, List.mem_append] at h
    exact h.imp number_mem_limitTokens number_mem_offsetTokens

/-- The builder writes no numbers but the limit and the offset. -/
theorem number_mem_tokens (h : .number n ∈ s.tokens) : s.limit? = some n ∨ s.offset? = some n := by
  simp only [tokens, List.mem_append] at h
  rcases h with (((hhead | htop) | hrow) | horder) | htail
  · exact absurd (s.isPlain_headTokens _ hhead) id
  · exact .inl (number_mem_topTokens htop)
  · exact absurd (s.isPlain_rowTokens _ hrow) id
  · exact absurd (isPlain_termTokens _ _ _ horder) id
  · exact number_mem_tailTokens htail

theorem says_paging (h : s.paging.Says m) :
    (∃ n : Nat, m = n ∧ (s.limit? = some n ∨ s.offset? = some n)) ∨
      s.dialect.noLimitNumber? = some m := by
  have hgiven : ∀ {x : Option Nat}, x.map Int.ofNat = some m → ∃ n : Nat, m = n ∧ x = some n := by
    intro x hx
    obtain ⟨n, rfl, rfl⟩ := Option.map_eq_some_iff.mp hx
    exact ⟨n, rfl, rfl⟩
  have hlimit : s.limit?.map Int.ofNat = some m →
      ∃ n : Nat, m = n ∧ (s.limit? = some n ∨ s.offset? = some n) :=
    fun h => (hgiven h).imp fun n hn => ⟨hn.1, .inl hn.2⟩
  simp only [paging, Paging.Says] at h
  rcases h with htop | hlimited | hoffset
  · split_ifs at htop
    exact .inl (hlimit htop)
  · split_ifs at hlimited
    rcases Option.or_eq_some_iff.mp hlimited with hlimited | ⟨-, hnumber⟩
    · exact .inl (hlimit hlimited)
    · obtain ⟨-, -, hnumber⟩ := Option.bind_eq_some_iff.mp hnumber
      exact .inr hnumber
  · exact .inl ((hgiven hoffset).imp fun n hn => ⟨hn.1, .inr hn.2⟩)

end Sql.Select

/-- A number that fits a signed word of 64 bits, or the one that stands for no limit. -/
def Dialect.FitsPaging (d : Dialect) (m : Int) : Prop :=
  -2 ^ 63 ≤ m ∧ m < 2 ^ 63 ∨ d = .mysql ∧ m = 18446744073709551615

theorem Dialect.fitsPaging_noLimitNumber? {d : Dialect} {m : Int}
    (h : d.noLimitNumber? = some m) : d.FitsPaging m := by
  cases d with
  | sqlite =>
    cases h
    exact .inl (by decide)
  | mysql =>
    cases h
    exact .inr ⟨rfl, rfl⟩
  | postgres | sqlserver => cases h

namespace FetchParams
variable {t : Target} {disallowed : List ParamKey} {table : String} {key : ParamKey}
  {members : List (String × Json)} {p : FetchParams} {j : Json}

/-- What parameters store for the limit or for the offset. -/
def paging? (p : FetchParams) : ParamKey → Option Nat
  | .limit => p.limit
  | .offset => p.offset
  | _ => none

theorem exists_limitOfJson_of_ofJson (hkey : key = .limit ∨ key = .offset)
    (hj : given disallowed members key = some j) (h : ofJson disallowed (.object members) = .ok p) :
    ∃ n, limitOfJson key j = .ok n ∧ p.paging? key = some n := by
  have hread : ReadsAs (given disallowed members) p := ofGiven_eq_ok.mp h
  rcases hkey with rfl | rfl
  · exact mapM_some (hj ▸ hread.limit)
  · exact mapM_some (hj ▸ hread.offset)

/-- Whatever is stored was read from something, so it is in range. -/
theorem ReadsAs.le_maxLimit {given : ParamKey → Option Json} {n : Nat} (h : ReadsAs given p)
    (hn : p.limit = some n ∨ p.offset = some n) : n ≤ maxLimit := by
  have hle : ∀ {key : ParamKey} {x : Option Json},
      x.mapM (limitOfJson key) = .ok (some n) → n ≤ maxLimit := by
    intro key x hx
    cases x with
    | none => cases hx
    | some j =>
      obtain ⟨m, hm, heq⟩ := mapM_some hx
      cases heq
      exact le_of_limit? (limitOfJson_eq_ok.mp hm)
  rcases hn with hn | hn
  · exact hle (hn ▸ h.limit)
  · exact hle (hn ▸ h.offset)

/-- A malformed limit is what is reported, unless something under a smaller name is malformed. -/
theorem errorKind?_of_malformed_limit (hkey : key = .limit ∨ key = .offset)
    (hj : given disallowed members key = some j) {e : Error} (h : limitOfJson key j = .error e)
    (hfirst : ∀ key' j' kind, key'.name < key.name → given disallowed members key' = some j' →
      ¬ IsMalformed key' j' kind) :
    errorKind? (compileJson t disallowed table (.object members)) = some .badLimitParam := by
  have hnone : ¬ IsLimit j := by
    intro hlimit
    obtain ⟨n, hn⟩ := exists_limitOfJson.mpr hlimit
    cases h.symm.trans hn
  have hmalformed : IsMalformed key j .badLimitParam := by
    rcases hkey with rfl | rfl
    · exact .limit hnone
    · exact .offset hnone
  exact (reports_compileJson t disallowed table _).unique (.malformed hj hmalformed hfirst)

/-- The selection that untyped data make, and the numbers in its text. -/
structure Pages (t : Target) (p : FetchParams) (s : Sql.Select) (st : Sql.Statement) : Prop where
  built : st = s.build
  limit : s.limit? = p.limit
  offset : s.offset? = p.offset
  text : st.sql = "SELECT" ++ Sql.Token.spaced s.tokens
  numbers : ∀ n, .number n ∈ s.tokens → n ≤ maxLimit
  clauses : ∀ m, (Paging.read t.dialect (s.readWords fun _ => [])).Says m → t.dialect.FitsPaging m

theorem exists_pages {st : Sql.Statement}
    (h : compileJson t disallowed table (.object members) = .ok st) :
    ∃ p s, ofJson disallowed (.object members) = .ok p ∧ Pages t p s st := by
  obtain ⟨ms, p, s, hms, hread, htaken, rfl⟩ := exists_selection_of_compileJson h
  cases hms
  have hle : ∀ {n : Nat}, s.limit? = some n ∨ s.offset? = some n → n ≤ maxLimit := by
    intro n hn
    rw [htaken.limit, htaken.offset] at hn
    exact hread.le_maxLimit hn
  refine ⟨p, s, ofGiven_eq_ok.mpr hread, rfl, htaken.limit, htaken.offset, s.build_sql_eq,
    fun n hn => hle (Sql.Select.number_mem_tokens hn), fun m hm => ?_⟩
  rw [← htaken.dialect, Sql.Select.read_readWords Sql.Select.read_own_words] at hm
  rw [← htaken.dialect]
  rcases Sql.Select.says_paging hm with ⟨n, rfl, hn⟩ | hnumber
  · have hmax : maxLimit = 2 ^ 63 - 1 := rfl
    have hn' := hle hn
    exact .inl (by omega)
  · exact Dialect.fitsPaging_noLimitNumber? hnumber

/-- An integer that is given for the limit or the offset is stored as it is, or refused if it is out
of range; what is no number is refused, and no number in the text of a selection is out of range. -/
theorem limits_exact (t : Target) (disallowed : List ParamKey) (table : String) (key : ParamKey)
    (hkey : key = .limit ∨ key = .offset) :
    (∀ j n, limitOfJson key j = .ok n → n ≤ maxLimit) ∧
    (∀ j i, Json.IsInteger j i →
      ∀ n : Nat, limitOfJson key j = .ok n ↔ (n : Int) = i ∧ i < 2 ^ 63) ∧
    (∀ j, (Json.IsNoNumber j ∨ ∃ i, Json.IsInteger j i ∧ (i < 0 ∨ 2 ^ 63 ≤ i)) →
      ∃ e, limitOfJson key j = .error e ∧ e.kind = .badLimitParam) ∧
    ∀ members : List (String × Json),
      (∀ j p, given disallowed members key = some j → ofJson disallowed (.object members) = .ok p →
        ∃ n, limitOfJson key j = .ok n ∧ p.paging? key = some n) ∧
      (∀ j e, given disallowed members key = some j → limitOfJson key j = .error e →
        (∀ key' j' kind, key'.name < key.name → given disallowed members key' = some j' →
          ¬ IsMalformed key' j' kind) →
        errorKind? (compileJson t disallowed table (.object members)) = some .badLimitParam) ∧
      ∀ st, compileJson t disallowed table (.object members) = .ok st →
        ∃ p s, ofJson disallowed (.object members) = .ok p ∧ Pages t p s st := by
  refine ⟨?_, ?_, ?_, fun members => ⟨?_, ?_, ?_⟩⟩
  · intro j n h
    exact le_of_limit? (limitOfJson_eq_ok.mp h)
  · intro j i h n
    rw [limitOfJson_eq_ok, Json.limit?_of_isInteger h, limitOfInt?_eq_some]
  · rintro j (h | ⟨i, h, hi⟩)
    · exact exists_error_of_limit? (Json.limit?_of_isNoNumber h)
    · exact exists_error_of_limit? ((Json.limit?_of_isInteger h).trans (limitOfInt?_eq_none hi))
  · intro j p hj hread
    exact exists_limitOfJson_of_ofJson hkey hj hread
  · intro j e hj he hfirst
    exact errorKind?_of_malformed_limit hkey hj he hfirst
  · intro st h
    exact exists_pages h

/-- The largest limit and the next number, written with a sign and zeros. -/
theorem limits_exact_largest :
    (∀ n : Nat, limitOfJson .limit (.string " +009223372036854775807") = .ok n ↔
        (n : Int) = 9223372036854775807 ∧ (9223372036854775807 : Int) < 2 ^ 63) ∧
      ∃ e, limitOfJson .limit (.string "9223372036854775808 ") = .error e ∧
        e.kind = .badLimitParam := by
  obtain ⟨-, hexact, hrefused, -⟩ :=
    limits_exact Dialect.mysql.target [] "users" .limit (.inl rfl)
  have hlargest : Text.Denotes (Text.trim " +009223372036854775807") 9223372036854775807 :=
    Text.readInteger?_eq_some.mp (by decide +kernel)
  have hnext : Text.Denotes (Text.trim "9223372036854775808 ") 9223372036854775808 :=
    Text.readInteger?_eq_some.mp (by decide +kernel)
  exact ⟨hexact _ _ (.text hlargest), hrefused _ (.inr ⟨_, .text hnext, .inr (by decide)⟩)⟩

end FetchParams

end TableAccess
