import Mathlib.Data.List.Forall2
import TableAccess.Json.Basic
import TableAccess.Proofs.DecimalTexts

/-!
# Printed data read back

Data are printed without blanks, and what is printed is read again: strings with their escapes,
integers that fit a word, and arrays and objects of parts that are read. `Reads` says it of the
front of a text, so that the lemma for an array or an object follows from those for its parts.
-/
namespace TableAccess.Json

section Strings
variable {a b c d e : Char} {n : Nat}

theorem readString?_shortEscape (h : shortEscape? e = some c) (cs : List Char) :
    readString? ('\\' :: e :: cs) = (readString? cs).map fun r => (.char c :: r.1, r.2) := by
  have he : e ≠ 'u' := by
    rintro rfl
    cases h
  rw [readString?]
  · cases hcs : readString? cs <;> simp [h]
  · intro _ _ _ _ _ hu
    exact absurd hu he

theorem readString?_unit (h : hexUnit? a b c d = some n) (cs : List Char) :
    readString? ('\\' :: 'u' :: a :: b :: c :: d :: cs) =
      (readString? cs).map fun r => (.unit n :: r.1, r.2) := by
  rw [readString?]
  cases hcs : readString? cs <;> simp [h]

theorem readString?_plain (hquote : c ≠ '"') (hslash : c ≠ '\\') (hcontrol : 0x20 ≤ c.toNat)
    (cs : List Char) :
    readString? (c :: cs) = (readString? cs).map fun r => (.char c :: r.1, r.2) := by
  rw [readString?]
  · cases hcs : readString? cs <;> simp [Nat.not_lt.mpr hcontrol]
  · simpa using hquote
  · simp [hslash]
  · simp [hslash]

theorem hexDigit?_digitChar (h : n < 16) : hexDigit? (Nat.digitChar n) = some n := by
  have hall : ∀ n < 16, hexDigit? (Nat.digitChar n) = some n := by decide
  exact hall n h

theorem hexUnit?_control (h : n < 0x20) :
    hexUnit? '0' '0' (Nat.digitChar (n / 16)) (Nat.digitChar (n % 16)) = some n := by
  have hzero : hexDigit? '0' = some 0 := rfl
  have hhigh : n / 16 < 16 := by omega
  have hvalue : n / 16 * 16 + n % 16 = n := by omega
  simp [hexUnit?, hzero, hexDigit?_digitChar hhigh, hexDigit?_digitChar (Nat.mod_lt n _), hvalue]

/-- An escape below the surrogates stands for a character by itself. -/
theorem joinPieces_unit (h : n < 0xD800) (ps : List Piece) :
    joinPieces (.unit n :: ps) = (joinPieces ps).map (Char.ofNat n :: ·) := by
  rw [joinPieces.eq_def]
  exact if_pos (.inl h)

/-- A printed character is read as one piece, which stands for the character. -/
theorem exists_readString?_escapeChar (c : Char) (cs : List Char) :
    ∃ p, (∀ ps, joinPieces (p :: ps) = (joinPieces ps).map (c :: ·)) ∧
      readString? (escapeChar c ++ cs) = (readString? cs).map fun r => (p :: r.1, r.2) := by
  have hchar : ∀ ps, joinPieces (.char c :: ps) = (joinPieces ps).map (c :: ·) := fun _ => rfl
  unfold escapeChar
  split
  · exact ⟨_, hchar, readString?_shortEscape rfl cs⟩
  · exact ⟨_, hchar, readString?_shortEscape rfl cs⟩
  · exact ⟨_, hchar, readString?_shortEscape rfl cs⟩
  · exact ⟨_, hchar, readString?_shortEscape rfl cs⟩
  · exact ⟨_, hchar, readString?_shortEscape rfl cs⟩
  · next hquote hslash _ _ _ =>
    split_ifs with hbackspace hfeed hcontrol
    · have hc : c = Char.ofNat 8 := by rw [← hbackspace, Char.ofNat_toNat]
      exact ⟨_, hchar, readString?_shortEscape (hc ▸ rfl) cs⟩
    · have hc : c = Char.ofNat 12 := by rw [← hfeed, Char.ofNat_toNat]
      exact ⟨_, hchar, readString?_shortEscape (hc ▸ rfl) cs⟩
    · refine ⟨_, fun ps => ?_, readString?_unit (hexUnit?_control hcontrol) cs⟩
      rw [joinPieces_unit (by omega), Char.ofNat_toNat]
    · exact ⟨_, hchar, readString?_plain hquote hslash (Nat.le_of_not_lt hcontrol) cs⟩

/-- A printed string ends at its own last quote. -/
theorem exists_readString?_quoted (cs rest : List Char) :
    ∃ ps, joinPieces ps = some cs ∧
      readString? (cs.flatMap escapeChar ++ '"' :: rest) = some (ps, rest) := by
  induction cs with
  | nil => exact ⟨[], rfl, rfl⟩
  | cons c cs ih =>
    obtain ⟨ps, hjoin, hread⟩ := ih
    obtain ⟨p, hpiece, hchar⟩ :=
      exists_readString?_escapeChar c (cs.flatMap escapeChar ++ '"' :: rest)
    refine ⟨p :: ps, ?_, ?_⟩
    · rw [hpiece, hjoin, Option.map_some]
    · rw [List.flatMap_cons, List.append_assoc, hchar, hread, Option.map_some]

theorem toList_quote (s : String) :
    (quote s).toList = '"' :: (s.toList.flatMap escapeChar ++ ['"']) := by
  rw [quote, String.toList_ofList, List.cons_append]

/-- What is behind the opening quote of a printed string is read as the string. -/
theorem exists_readString?_quote (s : String) (rest : List Char) :
    ∃ ps, textOfPieces ps = some s ∧
      readString? (s.toList.flatMap escapeChar ++ '"' :: rest) = some (ps, rest) := by
  obtain ⟨ps, hjoin, hread⟩ := exists_readString?_quoted s.toList rest
  refine ⟨ps, ?_, hread⟩
  rw [textOfPieces, hjoin, Option.map_some, String.ofList_toList]

end Strings

section Numbers

/-- A character that does not go on with the number before it. -/
def EndsNumber (c : Char) : Prop := c.isDigit = false ∧ c ≠ '.' ∧ c ≠ 'e' ∧ c ≠ 'E'

instance : DecidablePred EndsNumber := fun _ => inferInstanceAs (Decidable (_ ∧ _))

/-- The values of the digits of a number. -/
def digitsOf (n : Nat) : List Nat := (Nat.toDigits 10 n).map fun c => c.toNat - '0'.toNat

theorem ofDigits_digitsOf (n : Nat) : Text.ofDigits (digitsOf n) = n := by
  rw [digitsOf, Text.ofDigits_map, Nat.ofDigitChars_ten_toDigits]

/-- The digits of a number have no zero in front, unless they are one digit. -/
theorem toDigits_eq_zero_cons {n : Nat} {cs : List Char} (h : Nat.toDigits 10 n = '0' :: cs) :
    cs = [] := by
  by_contra hne
  have hdigits : ∀ c ∈ cs, c.isDigit = true :=
    fun c hc => Text.isDigit_of_mem_toDigits (n := n) (by simp [h, hc])
  have hvalue : Nat.ofDigitChars 10 cs 0 = n := by
    have hall := Nat.ofDigitChars_ten_toDigits (n := n)
    rwa [h, Nat.ofDigitChars_cons] at hall
  -- The digits behind the zero would denote the same number and be more than its digits.
  obtain ⟨zeros, hcs⟩ := Text.isDecimal_ofDigitChars hne hdigits
  rw [hvalue] at hcs
  have hlength := congrArg List.length hcs
  simp only [h, List.length_append, List.length_cons] at hlength
  omega

theorem readDigits?_digits (n : Nat) {rest : List Char} (h : Text.Ends EndsNumber rest) :
    readDigits? (Nat.toDigits 10 n ++ rest) = some (digitsOf n, rest) := by
  rw [readDigits?, Text.takeWhile_toDigits n h fun _ hc => hc.1,
    Text.dropWhile_toDigits n h fun _ hc => hc.1]
  split
  · next hnil => exact absurd hnil Nat.toDigits_ne_nil
  · rfl

theorem readFraction?_of_ends {rest : List Char} (h : Text.Ends EndsNumber rest) :
    readFraction? rest = some (none, rest) := by
  cases rest with
  | nil => rfl
  | cons c cs =>
    rw [readFraction?]
    simpa using (h c rfl).2.1

theorem readExponent?_of_ends {rest : List Char} (h : Text.Ends EndsNumber rest) :
    readExponent? rest = some (none, rest) := by
  cases rest with
  | nil => rfl
  | cons c cs =>
    obtain ⟨-, -, he, hE⟩ := h c rfl
    simp [readExponent?, he, hE]

/-- The literal of an integer. -/
def Literal.ofInt (i : Int) : Literal := ⟨decide (i < 0), digitsOf i.natAbs, none, none⟩

theorem readLiteral?_digits (negative : Bool) (n : Nat) {rest : List Char}
    (h : Text.Ends EndsNumber rest) :
    readLiteral? negative (Nat.toDigits 10 n ++ rest) =
      some (⟨negative, digitsOf n, none, none⟩, rest) := by
  have hhead : ¬ ((digitsOf n).head? = some 0 ∧ (digitsOf n).length ≠ 1) := by
    rintro ⟨hzero, hlength⟩
    cases hn : Nat.toDigits 10 n with
    | nil => exact Nat.toDigits_ne_nil hn
    | cons c cs =>
      have hc : c.isDigit = true := Text.isDigit_of_mem_toDigits (n := n) (by simp [hn])
      have hvalue : c.toNat - '0'.toNat = 0 := by simpa [digitsOf, hn] using hzero
      have hdigit := Text.toDigits_sub_zero hc
      rw [hvalue] at hdigit
      obtain rfl : '0' = c := by simpa using hdigit
      rw [toDigits_eq_zero_cons hn] at hn
      exact hlength (by simp [digitsOf, hn])
  simp [readLiteral?, readDigits?_digits n h, readFraction?_of_ends h, readExponent?_of_ends h,
    hhead]

theorem Literal.value?_ofInt (i : Integer) : (ofInt i.val).value? = some (.int i) := by
  have hint : (ofInt i.val).int? = some i := by
    have hi : Integer.ofInt? i.val = some i := Integer.ofInt?_eq_some.mpr rfl
    rw [← hi]
    simp only [int?, ofInt, ofDigits_digitsOf, Option.isSome_none, Bool.or_self, Bool.false_eq_true,
      if_false, decide_eq_true_eq]
    by_cases hneg : i.val < 0
    · have hn : 0 < i.val.natAbs := by omega
      have hsign : -(i.val.natAbs : Int) = i.val := by omega
      rw [if_pos hneg, if_pos hn, hsign]
    · have hsign : (i.val.natAbs : Int) = i.val := by omega
      rw [if_neg hneg, hsign]
  rw [value?, hint]

end Numbers

section Values
variable {fuel : Nat} {c : Char} {cs : List Char}

/-- What begins with no other mark has to be a number. -/
theorem readValue?_plain (h : c ∉ ['n', 't', 'f', '"', '[', Char.ofNat 0x7B, '-']) :
    readValue? (fuel + 1) (c :: cs) =
      (readLiteral? false (c :: cs)).map fun r => (.number r.1, r.2) := by
  simp only [List.mem_cons, List.not_mem_nil, or_false, not_or] at h
  obtain ⟨hn, ht, hf, hquote, hbracket, hbrace, hminus⟩ := h
  rw [readValue?]
  · rw [if_neg (by simpa using hbrace), if_neg (by simpa using hminus)]
    cases readLiteral? false (c :: cs) <;> rfl
  · exact fun _ hc => absurd hc hn
  · exact fun _ hc => absurd hc ht
  · exact fun _ hc => absurd hc hf
  · exact hquote
  · exact hbracket

theorem readValue?_minus :
    readValue? (fuel + 1) ('-' :: cs) =
      (readLiteral? true cs).map fun r => (.number r.1, r.2) := by
  rw [readValue?]
  · rw [if_neg (by decide), if_pos (beq_self_eq_true _)]
    cases readLiteral? true cs <;> rfl
  all_goals simp

theorem readValue?_quote :
    readValue? (fuel + 1) ('"' :: cs) =
      (readString? cs).map fun r => (.string (textOfPieces r.1), r.2) := by
  rw [readValue?]
  cases readString? cs <;> rfl

/-- No value begins with a blank or with a closing bracket. -/
theorem readValue?_eq_none (h : isGap c = true ∨ c = ']') (fuel : Nat) (cs : List Char) :
    readValue? fuel (c :: cs) = none := by
  cases fuel with
  | zero => rw [readValue?]
  | succ fuel =>
    have hmem : c ∈ [' ', '\n', '\t', '\r', ']'] := by
      simpa [isGap, or_assoc] using h
    obtain ⟨hplain, hdigit⟩ :
        c ∉ ['n', 't', 'f', '"', '[', Char.ofNat 0x7B, '-'] ∧ c.isDigit = false := by
      simp only [List.mem_cons, List.not_mem_nil, or_false] at hmem
      rcases hmem with rfl | rfl | rfl | rfl | rfl <;> decide
    rw [readValue?_plain hplain]
    simp [readLiteral?, readDigits?, hdigit]

/-- A text is read as a document, whatever follows that does not go on with a number. -/
def Reads (cs : List Char) (d : Document) : Prop :=
  ∀ fuel rest, cs.length ≤ fuel → Text.Ends EndsNumber rest →
    readValue? fuel (cs ++ rest) = some (d, rest)

namespace Reads
variable {d : Document}

theorem ne_nil (h : Reads cs d) : cs ≠ [] := by
  rintro rfl
  have hread := h 0 [] (Nat.le_refl _) Text.ends_nil
  simp [readValue?] at hread

/-- What is read begins neither with a blank nor with a closing bracket. -/
theorem exists_cons (h : Reads cs d) : ∃ c cs', cs = c :: cs' ∧ isGap c = false ∧ c ≠ ']' := by
  cases cs with
  | nil => exact absurd rfl h.ne_nil
  | cons c cs' =>
    have hread := h (c :: cs').length [] (Nat.le_refl _) Text.ends_nil
    refine ⟨c, cs', rfl, ?_, ?_⟩
    · cases hgap : isGap c with
      | false => rfl
      | true => simp [readValue?_eq_none (.inl hgap)] at hread
    · rintro rfl
      simp [readValue?_eq_none (.inr rfl)] at hread

theorem skipGap_append (h : Reads cs d) (rest : List Char) :
    skipGap (cs ++ rest) = cs ++ rest := by
  obtain ⟨c, cs', rfl, hgap, -⟩ := h.exists_cons
  simp [skipGap, hgap]

end Reads

/-- There is fuel for the first step. -/
theorem reads_of_succ {d : Document} (hne : cs ≠ [])
    (h : ∀ fuel rest, cs.length ≤ fuel + 1 → Text.Ends EndsNumber rest →
      readValue? (fuel + 1) (cs ++ rest) = some (d, rest)) : Reads cs d := by
  intro fuel rest hfuel hrest
  cases fuel with
  | zero => exact absurd (List.length_eq_zero_iff.mp (Nat.le_zero.mp hfuel)) hne
  | succ fuel => exact h fuel rest hfuel hrest

theorem reads_null : Reads ['n', 'u', 'l', 'l'] .null :=
  reads_of_succ (by simp) fun _ _ _ _ => rfl

theorem reads_true : Reads ['t', 'r', 'u', 'e'] (.bool true) :=
  reads_of_succ (by simp) fun _ _ _ _ => rfl

theorem reads_false : Reads ['f', 'a', 'l', 's', 'e'] (.bool false) :=
  reads_of_succ (by simp) fun _ _ _ _ => rfl

theorem reads_quote (s : String) : Reads (quote s).toList (.string (some s)) := by
  rw [toList_quote]
  refine reads_of_succ (by simp) fun fuel rest _ _ => ?_
  obtain ⟨ps, htext, hread⟩ := exists_readString?_quote s rest
  rw [List.cons_append, List.append_assoc, List.singleton_append, readValue?_quote, hread,
    Option.map_some, htext]

theorem reads_int (i : Int) : Reads (toString i).toList (.number (.ofInt i)) := by
  rw [Text.toList_toString_int]
  by_cases hneg : i < 0
  · rw [if_pos hneg]
    refine reads_of_succ (by simp) fun fuel rest _ hrest => ?_
    rw [List.singleton_append, List.cons_append, readValue?_minus, readLiteral?_digits true _ hrest,
      Option.map_some, Literal.ofInt, decide_eq_true hneg]
  · rw [if_neg hneg, List.nil_append]
    refine reads_of_succ Nat.toDigits_ne_nil fun fuel rest _ hrest => ?_
    have hread := readLiteral?_digits false i.natAbs hrest
    cases hn : Nat.toDigits 10 i.natAbs with
    | nil => exact absurd hn Nat.toDigits_ne_nil
    | cons c cs =>
      have hc : c.isDigit = true := Text.isDigit_of_mem_toDigits (n := i.natAbs) (by simp [hn])
      have hplain : c ∉ ['n', 't', 'f', '"', '[', Char.ofNat 0x7B, '-'] := by
        intro hmem
        have hnoDigit : c.isDigit = false := by
          simp only [List.mem_cons, List.not_mem_nil, or_false] at hmem
          rcases hmem with rfl | rfl | rfl | rfl | rfl | rfl | rfl <;> decide
        exact absurd hc (by simp [hnoDigit])
      rw [hn] at hread
      rw [List.cons_append, readValue?_plain hplain, ← List.cons_append, hread, Option.map_some,
        Literal.ofInt, decide_eq_false hneg]

end Values

section Collections
variable {fuel : Nat} {cs more rest : List Char} {d : Document}

theorem ends_comma (cs : List Char) : Text.Ends EndsNumber (',' :: cs) :=
  Text.ends_cons (by decide) cs

theorem ends_bracket (cs : List Char) : Text.Ends EndsNumber (']' :: cs) :=
  Text.ends_cons (by decide) cs

theorem ends_brace (cs : List Char) : Text.Ends EndsNumber (Char.ofNat 0x7D :: cs) :=
  Text.ends_cons (by decide) cs

theorem exists_intercalate_cons (cs : List Char) (texts : List (List Char)) :
    ∃ more, [','].intercalate (cs :: texts) = cs ++ more := by
  cases texts with
  | nil => exact ⟨[], by simp⟩
  | cons cs' texts => exact ⟨_, by rw [List.intercalate_cons_cons, List.append_assoc]⟩

/-- Parts with commas between them are read up to the closing mark, if one part is read there and
one before a comma. -/
theorem read_intercalate {α : Type} {R : List Char → α → Prop}
    {read : Nat → List Char → Option (List α × List Char)} {close : Char}
    (hlast : ∀ {cs a fuel rest}, R cs a → cs.length ≤ fuel →
      read (fuel + 1) (cs ++ close :: rest) = some ([a], rest))
    (hcomma : ∀ {cs a fuel more}, R cs a → cs.length ≤ fuel → skipGap more = more →
      read (fuel + 1) (cs ++ ',' :: more) = (read fuel more).map fun r => (a :: r.1, r.2))
    (hskip : ∀ {cs a} more, R cs a → skipGap (cs ++ more) = cs ++ more)
    {texts : List (List Char)} {as : List α} (h : List.Forall₂ R texts as) (hne : texts ≠ [])
    (hfuel : ([','].intercalate texts).length < fuel) (rest : List Char) :
    read fuel ([','].intercalate texts ++ close :: rest) = some (as, rest) := by
  induction h generalizing fuel with
  | nil => exact absurd rfl hne
  | @cons cs a texts as ha has ih =>
    obtain ⟨fuel, rfl⟩ := Nat.exists_eq_succ_of_ne_zero (Nat.ne_zero_of_lt hfuel)
    cases has with
    | nil =>
      rw [List.intercalate_singleton] at hfuel ⊢
      exact hlast ha (Nat.le_of_lt_succ hfuel)
    | @cons cs' a' texts as ha' has =>
      rw [List.intercalate_cons_cons, List.length_append, List.length_append,
        List.length_singleton] at hfuel
      have hmore : skipGap ([','].intercalate (cs' :: texts) ++ close :: rest) =
          [','].intercalate (cs' :: texts) ++ close :: rest := by
        obtain ⟨more, hmore⟩ := exists_intercalate_cons cs' texts
        rw [hmore, List.append_assoc]
        exact hskip _ ha'
      have hrest : read fuel ([','].intercalate (cs' :: texts) ++ close :: rest) =
          some (a' :: as, rest) := ih (by simp) (by omega)
      rw [List.intercalate_cons_cons, List.append_assoc, List.append_assoc, List.singleton_append,
        hcomma ha (by omega) hmore, hrest, Option.map_some]

theorem readItems?_last (h : Reads cs d) (hfuel : cs.length ≤ fuel) :
    readItems? (fuel + 1) (cs ++ ']' :: rest) = some ([d], rest) := by
  rw [readItems?, h fuel _ hfuel (ends_bracket rest)]
  rfl

theorem readItems?_comma (h : Reads cs d) (hfuel : cs.length ≤ fuel) (hmore : skipGap more = more) :
    readItems? (fuel + 1) (cs ++ ',' :: more) =
      (readItems? fuel more).map fun r => (d :: r.1, r.2) := by
  have hskip : skipGap (',' :: more) = ',' :: more := rfl
  rw [readItems?, h fuel _ hfuel (ends_comma more)]
  simp only [Option.bind_eq_bind, Option.bind_some, hskip, hmore]
  cases readItems? fuel more <;> rfl

theorem readValue?_bracket {c : Char} (hgap : isGap c = false) (hc : c ≠ ']') :
    readValue? (fuel + 1) ('[' :: c :: cs) =
      (readItems? fuel (c :: cs)).map fun r => (.array r.1, r.2) := by
  have hskip : skipGap (c :: cs) = c :: cs := by simp [skipGap, hgap]
  rw [readValue?, hskip]
  split
  · next heq => exact absurd (List.cons.inj heq).1 hc
  · cases readItems? fuel (c :: cs) <;> rfl

theorem reads_array {texts : List (List Char)} {ds : List Document}
    (h : List.Forall₂ Reads texts ds) :
    Reads ('[' :: ([','].intercalate texts ++ [']'])) (.array ds) := by
  refine reads_of_succ (by simp) fun fuel rest hfuel _ => ?_
  rw [List.length_cons, List.length_append, List.length_singleton] at hfuel
  rw [List.cons_append, List.append_assoc, List.singleton_append]
  cases h with
  | nil => rfl
  | @cons cs d texts ds hd hds =>
    have hitems := read_intercalate readItems?_last readItems?_comma
      (fun more hread => hread.skipGap_append more) (.cons hd hds) (by simp)
      (Nat.lt_of_succ_le (Nat.le_of_succ_le_succ hfuel)) rest
    obtain ⟨more, hmore⟩ := exists_intercalate_cons cs texts
    obtain ⟨c, cs', rfl, hgap, hc⟩ := hd.exists_cons
    rw [hmore, List.cons_append, List.cons_append] at hitems ⊢
    rw [readValue?_bracket hgap hc, hitems, Option.map_some]

/-- A text is read as a member of an object. -/
def ReadsMember (cs : List Char) (m : Option String × Document) : Prop :=
  ∃ k cs', cs = (quote k).toList ++ ':' :: cs' ∧ m.1 = some k ∧ Reads cs' m.2

theorem readsMember (k : String) (h : Reads cs d) :
    ReadsMember ((quote k).toList ++ ':' :: cs) (some k, d) :=
  ⟨k, cs, rfl, rfl, h⟩

/-- A member is read up to what stands behind its value. -/
theorem readMembers?_succ (k : String) (h : Reads cs d) (hfuel : cs.length ≤ fuel)
    (hrest : Text.Ends EndsNumber rest) :
    readMembers? (fuel + 1) ((quote k).toList ++ ':' :: cs ++ rest) =
      match skipGap rest with
      | ',' :: rest =>
        (readMembers? fuel (skipGap rest)).map fun r => ((some k, d) :: r.1, r.2)
      | c :: rest => if c == Char.ofNat 0x7D then some ([(some k, d)], rest) else none
      | [] => none := by
  obtain ⟨ps, htext, hread⟩ := exists_readString?_quote k (':' :: (cs ++ rest))
  have hskip : skipGap (':' :: (cs ++ rest)) = ':' :: (cs ++ rest) := rfl
  have hcons : (quote k).toList ++ ':' :: cs ++ rest =
      '"' :: (k.toList.flatMap escapeChar ++ '"' :: ':' :: (cs ++ rest)) := by
    simp [toList_quote]
  rw [hcons, readMembers?]
  simp only [hread, Option.bind_eq_bind, Option.bind_some, hskip, h.skipGap_append,
    h fuel rest hfuel hrest, htext]
  generalize skipGap rest = behind
  cases behind with
  | nil => rfl
  | cons c behind =>
    by_cases hc : c = ','
    · subst hc
      cases hmore : readMembers? fuel (skipGap behind) <;> simp [hmore]
    · simp

theorem readMembers?_last {m : Option String × Document} (h : ReadsMember cs m)
    (hfuel : cs.length ≤ fuel) :
    readMembers? (fuel + 1) (cs ++ Char.ofNat 0x7D :: rest) = some ([m], rest) := by
  obtain ⟨k, cs', rfl, hm, hd⟩ := h
  rw [List.length_append, List.length_cons] at hfuel
  rw [readMembers?_succ k hd (by omega) (ends_brace rest), ← hm]
  rfl

theorem readMembers?_comma {m : Option String × Document} (h : ReadsMember cs m)
    (hfuel : cs.length ≤ fuel) (hmore : skipGap more = more) :
    readMembers? (fuel + 1) (cs ++ ',' :: more) =
      (readMembers? fuel more).map fun r => (m :: r.1, r.2) := by
  obtain ⟨k, cs', rfl, hm, hd⟩ := h
  have hskip : skipGap (',' :: more) = ',' :: more := rfl
  rw [List.length_append, List.length_cons] at hfuel
  rw [readMembers?_succ k hd (by omega) (ends_comma more), hskip, ← hm]
  simp only [hmore]

theorem ReadsMember.exists_cons {m : Option String × Document} (h : ReadsMember cs m) :
    ∃ cs', cs = '"' :: cs' := by
  obtain ⟨k, cs', rfl, -⟩ := h
  exact ⟨_, by rw [toList_quote, List.cons_append]⟩

theorem readValue?_brace :
    readValue? (fuel + 1) (Char.ofNat 0x7B :: '"' :: cs) =
      (readMembers? fuel ('"' :: cs)).map fun r => (.object r.1, r.2) := by
  rw [readValue?]
  · cases h : readMembers? fuel ('"' :: cs) <;> simp [skipGap, isGap, h]
  all_goals simp

theorem reads_object {texts : List (List Char)} {members : List (Option String × Document)}
    (h : List.Forall₂ ReadsMember texts members) :
    Reads (Char.ofNat 0x7B :: ([','].intercalate texts ++ [Char.ofNat 0x7D]))
      (.object members) := by
  refine reads_of_succ (by simp) fun fuel rest hfuel _ => ?_
  rw [List.length_cons, List.length_append, List.length_singleton] at hfuel
  rw [List.cons_append, List.append_assoc, List.singleton_append]
  cases h with
  | nil => rfl
  | @cons cs m texts members hm hms =>
    have hskip : ∀ {cs m} more, ReadsMember cs m → skipGap (cs ++ more) = cs ++ more := by
      intro cs m more hmember
      obtain ⟨cs', rfl⟩ := hmember.exists_cons
      rfl
    have hmembers := read_intercalate readMembers?_last readMembers?_comma hskip
      (.cons hm hms) (by simp) (Nat.lt_of_succ_le (Nat.le_of_succ_le_succ hfuel)) rest
    obtain ⟨more, hmore⟩ := exists_intercalate_cons cs texts
    obtain ⟨cs', rfl⟩ := hm.exists_cons
    rw [hmore, List.cons_append, List.cons_append] at hmembers ⊢
    rw [readValue?_brace, hmembers, Option.map_some]

/-- A text that is read to its end is that of the document. -/
theorem Reads.read? {s : String} (h : Reads s.toList d) : Document.read? s = some d := by
  have hskip : skipGap s.toList = s.toList := by simpa using h.skipGap_append []
  have hread := h (2 * s.toList.length + 2) [] (by omega) Text.ends_nil
  rw [List.append_nil] at hread
  simp only [Document.read?, hskip, hread, Option.bind_eq_bind, Option.bind_some]
  rfl

end Collections

section Data

theorem compressItems_eq (items : List Json) : compressItems items = items.map compress := by
  induction items with
  | nil => rfl
  | cons x items ih => rw [compressItems, ih, List.map_cons]

theorem compressMembers_eq (members : List (String × Json)) :
    compressMembers members = members.map fun m => quote m.1 ++ ":" ++ compress m.2 := by
  induction members with
  | nil => rfl
  | cons m members ih => rw [compressMembers, ih, List.map_cons]

theorem reads_compress_array {items : List Json} {ds : List Document}
    (h : List.Forall₂ (fun x d => Reads x.compress.toList d) items ds) :
    Reads (compress (.array items)).toList (.array ds) := by
  have htext : (compress (.array items)).toList =
      '[' :: ([','].intercalate (items.map fun x => x.compress.toList) ++ [']']) := by
    simp [compress, compressItems_eq, String.toList_intercalate, Function.comp_def]
  rw [htext]
  exact reads_array (List.forall₂_map_left_iff.mpr h)

/-- An object is read as its members in their order, with their keys. -/
theorem reads_compress_object {members : List (String × Json)} {ds : List Document}
    (h : List.Forall₂ (fun m d => Reads m.2.compress.toList d) members ds) :
    Reads (compress (.object members)).toList
      (.object ((members.map fun m => some m.1).zip ds)) := by
  have htext : (compress (.object members)).toList = Char.ofNat 0x7B ::
      ([','].intercalate (members.map fun m => (quote m.1).toList ++ ':' :: m.2.compress.toList) ++
        [Char.ofNat 0x7D]) := by
    simp [compress, compressMembers_eq, String.toList_intercalate, Function.comp_def]
  rw [htext]
  refine reads_object ?_
  clear htext
  induction h with
  | nil => exact .nil
  | cons hm _ ih => exact .cons (readsMember _ hm) ih

end Data

end TableAccess.Json
