import Mathlib.Data.List.Basic
import Mathlib.Tactic.SplitIfs
import TableAccess.Text.Integer

/-!
# Numbers read back

The decimal digits of a natural number are read as that number, also out of a text that goes on
with no digit behind them.
-/
namespace TableAccess.Text

theorem digit?_of_isDigit {c : Char} (h : c.isDigit = true) :
    digit? c = some (c.toNat - '0'.toNat) := by
  have hrange : '0' ≤ c ∧ c ≤ '9' := by
    simpa [Char.isDigit, Char.le_def] using h
  rw [digit?, if_pos hrange]

theorem mapM_digit? {cs : List Char} (h : ∀ c ∈ cs, c.isDigit = true) :
    cs.mapM digit? = some (cs.map fun c => c.toNat - '0'.toNat) := by
  induction cs with
  | nil => rfl
  | cons c cs ih =>
    have hc := digit?_of_isDigit (h c (by simp))
    have hcs := ih fun x hx => h x (by simp [hx])
    simp [List.mapM_cons, hc, hcs]

theorem ofDigits_map (cs : List Char) :
    ofDigits (cs.map fun c => c.toNat - '0'.toNat) = Nat.ofDigitChars 10 cs 0 := by
  simp only [ofDigits, List.foldl_map, Nat.ofDigitChars, Nat.mul_comm]

theorem readDigits?_eq {cs : List Char} (hne : cs ≠ []) (h : ∀ c ∈ cs, c.isDigit = true) :
    readDigits? cs = some (Nat.ofDigitChars 10 cs 0) := by
  have hread : readDigits? cs = (cs.mapM digit?).map ofDigits := by
    cases cs with
    | nil => exact absurd rfl hne
    | cons c cs => rfl
  rw [hread, mapM_digit? h, Option.map_some, ofDigits_map]

theorem isDigit_of_mem_toDigits {n : Nat} {c : Char} (h : c ∈ Nat.toDigits 10 n) :
    c.isDigit = true :=
  Nat.isDigit_of_mem_toDigits (by decide) (by decide) h

section Ends
variable {P : Char → Prop} {rest : List Char}

/-- Nothing follows, or a character of a kind does. -/
def Ends (P : Char → Prop) (rest : List Char) : Prop := ∀ c ∈ rest.head?, P c

theorem ends_nil : Ends P [] := by
  simp [Ends]

theorem ends_cons {c : Char} (h : P c) (cs : List Char) : Ends P (c :: cs) := by
  simpa [Ends] using h

variable (n : Nat) (h : Ends P rest) (hdigit : ∀ c, P c → c.isDigit = false)
include h hdigit

theorem takeWhile_toDigits :
    (Nat.toDigits 10 n ++ rest).takeWhile Char.isDigit = Nat.toDigits 10 n := by
  rw [List.takeWhile_append_of_pos fun c hc => isDigit_of_mem_toDigits hc]
  cases rest with
  | nil => simp
  | cons c cs => simp [hdigit c (h c rfl)]

theorem dropWhile_toDigits : (Nat.toDigits 10 n ++ rest).dropWhile Char.isDigit = rest := by
  rw [List.dropWhile_append_of_pos fun c hc => isDigit_of_mem_toDigits hc]
  cases rest with
  | nil => rfl
  | cons c cs => simp [hdigit c (h c rfl)]

end Ends

theorem readDigits?_toDigits (n : Nat) : readDigits? (Nat.toDigits 10 n) = some n := by
  rw [readDigits?_eq Nat.toDigits_ne_nil fun c hc => isDigit_of_mem_toDigits hc,
    Nat.ofDigitChars_ten_toDigits]

/-- A written number is read back as an integer; no sign is in its way. -/
theorem readInteger?_toString (n : Nat) : readInteger? (toString n) = some (n : Int) := by
  have hchars : (toString n).toList = Nat.toDigits 10 n := Nat.toList_repr
  have hsign : ∀ c cs, Nat.toDigits 10 n = c :: cs → c ≠ '-' ∧ c ≠ '+' := by
    intro c cs h
    have hdigit : c.isDigit = true := isDigit_of_mem_toDigits (n := n) (by simp [h])
    constructor <;> rintro rfl <;> simp at hdigit
  rw [readInteger?, hchars]
  split
  · next h => exact absurd rfl (hsign _ _ h).1
  · next h => exact absurd rfl (hsign _ _ h).2
  · rw [readDigits?_toDigits]
    rfl

theorem toList_toString_int (i : Int) :
    (toString i).toList =
      (if i < 0 then ['-'] else []) ++ Nat.toDigits 10 i.natAbs := by
  cases i with
  | ofNat n => exact Nat.toList_repr
  | negSucc n =>
    rw [if_pos (Int.negSucc_lt_zero n), Int.toString_eq_repr, Int.repr, String.toList_append,
      Nat.toList_repr]
    rfl

/-- A written integer is read back with its sign. -/
theorem readInteger?_toString_int (i : Int) : readInteger? (toString i) = some i := by
  by_cases hneg : i < 0
  · rw [readInteger?, toList_toString_int, if_pos hneg]
    simp only [List.cons_append, List.nil_append, readDigits?_toDigits]
    have hi : -(i.natAbs : Int) = i := by omega
    exact congrArg some hi
  · have hnat : toString i = toString i.natAbs := by
      rw [← String.toList_inj, toList_toString_int, if_neg hneg]
      exact Nat.toList_repr.symm
    have hi : (i.natAbs : Int) = i := by omega
    rw [hnat, readInteger?_toString, hi]

theorem toString_int_inj {i j : Int} : toString i = toString j ↔ i = j := by
  constructor
  · intro h
    have hread := readInteger?_toString_int i
    rw [h, readInteger?_toString_int] at hread
    exact (Option.some.inj hread).symm
  · rintro rfl
    rfl

theorem point_notMem_toString_int (i : Int) : '.' ∉ (toString i).toList := by
  rw [toList_toString_int, List.mem_append, not_or]
  constructor
  · split_ifs <;> decide
  · intro hmem
    exact absurd (isDigit_of_mem_toDigits hmem) (by decide)

end TableAccess.Text
