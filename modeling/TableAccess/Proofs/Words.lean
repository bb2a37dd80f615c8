import TableAccess.Proofs.Numerals
import TableAccess.Text.Blank

/-!
# The words of a text

The words of a text that was put together with blanks are the words of its parts.
-/
namespace TableAccess.Text

theorem words_cons (c : Char) (cs : List Char) :
    words (c :: cs) =
      if isBlank c then words cs
      else
        match cs, words cs with
        | d :: _, w :: ws => if isBlank d then [c] :: w :: ws else (c :: w) :: ws
        | _, ws => [c] :: ws := rfl

theorem words_eq_filter (cs : List Char) :
    words cs = (cs.splitOnP isBlank).filter (· ≠ []) := by
  induction cs with
  | nil => rfl
  | cons c cs ih =>
    rw [words_cons, ih, List.splitOnP_cons_eq_if_modifyHead]
    cases isBlank c with
    | true => simp
    | false =>
      cases cs with
      | nil => rfl
      | cons d cs =>
        obtain ⟨r, rs, hr⟩ := List.exists_cons_of_ne_nil (List.splitOnP_ne_nil isBlank cs)
        rw [List.splitOnP_cons_eq_if_modifyHead, hr]
        cases hd : isBlank d with
        | true =>
          have hnil : ([] :: r :: rs).filter (· ≠ []) = (r :: rs).filter (· ≠ []) :=
            List.filter_cons_of_neg (by simp)
          have hword : ([c] :: r :: rs).filter (· ≠ []) = [c] :: (r :: rs).filter (· ≠ []) :=
            List.filter_cons_of_pos (by simp)
          simp only [if_true, Bool.false_eq_true, if_false, List.modifyHead_cons, hnil, hword]
          cases (r :: rs).filter (· ≠ []) with
          | nil => rfl
          | cons w ws => simp only [hd, if_true]
        | false => simp [hd]

/-- No word reaches over a blank. -/
theorem words_append_blank {b : Char} (hb : isBlank b = true) (cs ds : List Char) :
    words (cs ++ b :: ds) = words cs ++ words ds := by
  rw [words_eq_filter, words_eq_filter, words_eq_filter, List.splitOnP_append_cons cs ds hb,
    List.filter_append]

theorem words_eq_singleton {cs : List Char} (hne : cs ≠ [])
    (h : ∀ c ∈ cs, isBlank c = false) : words cs = [cs] := by
  rw [words_eq_filter, List.splitOnP_eq_singleton h, List.filter_cons_of_pos (by simpa using hne)]
  rfl

theorem isBlank_of_isDigit {c : Char} (h : c.isDigit = true) : isBlank c = false := by
  simp only [Char.isDigit, Bool.and_eq_true, decide_eq_true_eq] at h
  have hrange : 48 ≤ c.toNat ∧ c.toNat ≤ 57 := h
  simp [isBlank]
  omega

/-- The words of a text, as texts. -/
def wordsOf (s : String) : List String := (words s.toList).map String.ofList

theorem wordsOf_append_blank (s t : String) : wordsOf (s ++ " " ++ t) = wordsOf s ++ wordsOf t := by
  have hchars : (s ++ " " ++ t).toList = s.toList ++ ' ' :: t.toList := by
    simp [String.toList_append]
  rw [wordsOf, hchars, words_append_blank rfl, List.map_append]
  rfl

theorem wordsOf_eq_singleton {s : String} (hne : s ≠ "") (h : ∀ c ∈ s.toList, isBlank c = false) :
    wordsOf s = [s] := by
  have hchars : s.toList ≠ [] := by simpa using hne
  rw [wordsOf, words_eq_singleton hchars h, List.map_singleton, String.ofList_toList]

theorem wordsOf_toString (n : Nat) : wordsOf (toString n) = [toString n] := by
  have hchars : (toString n).toList = Nat.toDigits 10 n := Nat.toList_repr
  refine wordsOf_eq_singleton ?_ fun c hc => ?_
  · intro hempty
    rw [hempty] at hchars
    exact Nat.toDigits_ne_nil hchars.symm
  · exact isBlank_of_isDigit (isDigit_of_mem_toDigits (hchars ▸ hc))

end TableAccess.Text
