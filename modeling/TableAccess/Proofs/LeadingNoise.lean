import TableAccess.StatementKind

/-!
# What stands in front of a statement

Blanks, opening parentheses and comments, in any number and order, do not change the kind of the
statement behind them. The one exception are block comments whose text begins with a slash: the
star that opens such a comment ends it together with the slash, and what is left of the comment
counts as the statement.
-/
namespace TableAccess.StatementKind

/-- Something that may stand in front of a statement. -/
inductive Noise where
  | blanks (cs : List Char) (hblank : ∀ c ∈ cs, Text.isBlank c)
  | opening
  | line (body : List Char) (hbody : '\n' ∉ body)
  | block (body : List Char) (hbody : ¬['*', '/'] <:+: body)

namespace Noise

/-- How it is written. -/
def chars : Noise → List Char
  | .blanks cs _ => cs
  | .opening => ['(']
  | .line body _ => '-' :: '-' :: body ++ ['\n']
  | .block body _ => '/' :: '*' :: body ++ ['*', '/']

/-- Whether it is a comment that is taken to end with the star that opens it. -/
def endsEarly : Noise → Bool
  | .block body _ => body.head? == some '/'
  | _ => false

/-- What stands in front of a statement, written down. -/
def text (items : List Noise) : List Char := items.flatMap chars

/-- What is left of it behind the first three characters of the first comment that is taken to end
early, nothing if none is. -/
def unread : List Noise → List Char
  | [] => []
  | i :: items => if i.endsEarly then i.chars.drop 3 ++ text items else unread items

theorem unread_eq_nil {items : List Noise} (h : ∀ i ∈ items, i.endsEarly = false) :
    unread items = [] := by
  induction items with
  | nil => rfl
  | cons i items ih =>
    obtain ⟨hi, hitems⟩ := List.forall_mem_cons.mp h
    rw [unread, hi, ih hitems]
    rfl

end Noise

theorem afterLine_append {body : List Char} (h : '\n' ∉ body) (cs : List Char) :
    afterLine (body ++ '\n' :: cs) = cs := by
  induction body with
  | nil => simp [afterLine]
  | cons c body ih =>
    obtain ⟨hc, hbody⟩ := List.ne_and_not_mem_of_not_mem_cons h
    rw [List.cons_append, afterLine, if_neg (Ne.symm hc), ih hbody]

theorem afterBlock_cons {c : Char} {cs : List Char} (h : ¬['*', '/'] <+: c :: cs) :
    afterBlock (c :: cs) = afterBlock cs := by
  cases cs with
  | nil => rfl
  | cons d cs =>
    by_cases hd : d = '/'
    · have hc : c ≠ '*' := fun hc => h (by simp [hc, hd])
      subst hd
      rw [afterBlock, if_neg hc]
    · simp [afterBlock, hd]

/-- A comment ends where a star and a slash stand together for the first time. -/
theorem afterBlock_append {body : List Char} (h : ¬['*', '/'] <:+: body) (cs : List Char) :
    afterBlock (body ++ '*' :: '/' :: cs) = cs := by
  induction body with
  | nil => rfl
  | cons c body ih =>
    obtain ⟨hhead, htail⟩ := not_or.mp (mt List.infix_cons_iff.mpr h)
    -- The star that closes the comment makes no earlier end with the last character of the text.
    have hstart : ¬['*', '/'] <+: c :: (body ++ '*' :: '/' :: cs) := by
      cases body with
      | nil => simp [List.cons_prefix_cons]
      | cons d body => simpa [List.cons_prefix_cons] using hhead
    rw [List.cons_append, afterBlock_cons hstart, ih htail]

theorem skipNoise_blank {c : Char} (h : Text.isBlank c) (cs : List Char) :
    skipNoise (c :: cs) = skipNoise cs := by
  rw [skipNoise.eq_def]
  simp [h]

theorem skipNoise_opening (cs : List Char) : skipNoise ('(' :: cs) = skipNoise cs := by
  rw [skipNoise.eq_def]
  simp

theorem skipNoise_line (cs : List Char) :
    skipNoise ('-' :: '-' :: cs) = skipNoise (afterLine cs) := by
  have hblank : Text.isBlank '-' = false := by decide
  rw [skipNoise.eq_def]
  simp [hblank]

theorem skipNoise_block (cs : List Char) :
    skipNoise ('/' :: '*' :: cs) = skipNoise (afterBlock ('*' :: cs)) := by
  have hblank : Text.isBlank '/' = false := by decide
  rw [skipNoise.eq_def]
  simp [hblank]

namespace Noise

/-- A comment whose text does not begin with a slash is skipped as a whole. -/
theorem skipNoise_block_append {body : List Char} (h : ¬['*', '/'] <:+: body)
    (hslash : body.head? ≠ some '/') (cs : List Char) :
    skipNoise ('/' :: '*' :: (body ++ '*' :: '/' :: cs)) = skipNoise cs := by
  have hstar : ¬['*', '/'] <:+: '*' :: body := by
    rw [List.infix_cons_iff, not_or]
    refine ⟨fun hstart => hslash ?_, h⟩
    obtain ⟨rest, hrest⟩ := (List.cons_prefix_cons.mp hstart).2
    rw [← hrest]
    rfl
  rw [skipNoise_block, ← List.cons_append, afterBlock_append hstar]

/-- One item is skipped. -/
theorem skipNoise_chars {i : Noise} (h : i.endsEarly = false) (cs : List Char) :
    skipNoise (i.chars ++ cs) = skipNoise cs := by
  cases i with
  | blanks bs hblank =>
    induction bs with
    | nil => rfl
    | cons b bs ih =>
      obtain ⟨hb, hbs⟩ := List.forall_mem_cons.mp hblank
      rw [chars, List.cons_append, skipNoise_blank hb]
      exact ih hbs rfl
  | opening => exact skipNoise_opening cs
  | line body hbody =>
    simp only [chars, List.cons_append, List.append_assoc, List.nil_append]
    rw [skipNoise_line, afterLine_append hbody]
  | block body hbody =>
    simp only [chars, List.cons_append, List.append_assoc, List.nil_append]
    exact skipNoise_block_append hbody (by simpa [endsEarly] using h) cs

/-- A comment whose text begins with a slash is over before the text goes on. -/
theorem skipNoise_chars_early {i : Noise} (h : i.endsEarly) (cs : List Char) :
    skipNoise (i.chars ++ cs) = skipNoise (i.chars.drop 3 ++ cs) := by
  cases i with
  | block body hbody =>
    obtain ⟨rest, rfl⟩ : ∃ rest, body = '/' :: rest :=
      List.head?_eq_some_iff.mp (by simpa [endsEarly] using h)
    simp only [chars, List.cons_append, List.drop_succ_cons, List.drop_zero]
    rw [skipNoise_block]
    rfl
  | blanks | opening | line => cases h

/-- Items are skipped one after another, up to the first comment that is taken to end early. -/
theorem skipNoise_text (items : List Noise) (cs : List Char) :
    skipNoise (text items ++ cs) = skipNoise (unread items ++ cs) := by
  induction items with
  | nil => rfl
  | cons i items ih =>
    rw [text, List.flatMap_cons, List.append_assoc, unread]
    by_cases hi : i.endsEarly
    · rw [if_pos hi, skipNoise_chars_early hi, List.append_assoc, text]
    · rw [if_neg hi, skipNoise_chars (by simpa using hi), ← ih, text]

theorem ofSql_text (items : List Noise) (s : String) :
    ofSql (String.ofList (text items) ++ s) = ofSql (String.ofList (unread items) ++ s) := by
  simp only [ofSql, String.toList_append, String.toList_ofList, skipNoise_text]

end Noise

/-- What stands in front of a statement does not change its kind, unless a block comment among it
is taken to end early; then the kind is that of what is left behind the slash. -/
theorem leading_noise_skipped (items : List Noise) (s : String) :
    ofSql (String.ofList (Noise.text items) ++ s) =
        ofSql (String.ofList (Noise.unread items) ++ s) ∧
      ((∀ i ∈ items, i.endsEarly = false) →
        ofSql (String.ofList (Noise.text items) ++ s) = ofSql s) := by
  have htext := Noise.ofSql_text items s
  refine ⟨htext, fun hitems => ?_⟩
  rw [htext, Noise.unread_eq_nil hitems]
  simp

/-- Blanks that are not ASCII, parentheses, an empty comment, and comments whose texts end with a
star and hold the marks of the other kind. -/
def Noise.mixed : List Noise :=
  [.blanks [' ', '\t', '\u00a0'] (by simp [Text.isBlank]), .block [] (by simp), .opening,
    .line ['/', '*', '-'] (by decide),
    .block ['-', '-', '/', '\n', '*'] (by simp [List.infix_cons_iff, List.cons_prefix_cons]),
    .opening]

theorem leading_noise_skipped_mixed :
    (∀ i ∈ Noise.mixed, i.endsEarly = false) ∧
      ofSql " \t\u00a0/**/(--/*-\n/*--/\n**/(Delete FROM t" = ofSql "Delete FROM t" := by
  have hitems : ∀ i ∈ Noise.mixed, i.endsEarly = false := by decide
  exact ⟨hitems, (leading_noise_skipped Noise.mixed "Delete FROM t").2 hitems⟩

/-- A comment that begins with a slash is over after three characters, so that a selection behind
it is not seen. -/
theorem slash_comment_read :
    ¬∀ (items : List Noise) (s : String),
      ofSql (String.ofList (Noise.text items) ++ s) = ofSql s := by
  intro h
  have hcomment : ofSql "/*/ x */SELECT 1" = .other := by decide +kernel
  have hselect : ofSql "SELECT 1" = .select := by decide +kernel
  have hbody : ¬['*', '/'] <:+: ['/', ' ', 'x', ' '] := by
    simp [List.infix_cons_iff, List.cons_prefix_cons]
  have hsame : ofSql "/*/ x */SELECT 1" = ofSql "SELECT 1" := h [.block _ hbody] "SELECT 1"
  rw [hcomment, hselect] at hsame
  cases hsame

end TableAccess.StatementKind
