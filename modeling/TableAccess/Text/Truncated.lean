/-!
# Texts cut to a number of bytes

A limit counts the bytes of the UTF-8 form and a cut falls between two characters. The place of the
cut is searched from the limit backwards. Search and cut are partial as such: there is no offset
below 0, and no text ends inside a character. Cutting a text to a limit comes to neither, so it has
a result for every text and every limit.
-/
namespace TableAccess.Text

/-- Whether a byte offset is between two characters of a text or at one of its ends. -/
def isBoundary (s : String) (n : Nat) : Bool := (String.Pos.Raw.mk n).isValid s

/-- The text in front of a byte offset. There is none if the offset is inside a character or behind
the end. -/
def before? (s : String) (n : Nat) : Option String :=
  if h : (String.Pos.Raw.mk n).IsValid s then some (s.sliceTo (s.pos ⟨n⟩ h)).copy else none

/-- Whether the search for a boundary goes on below a byte offset. -/
def goesOn (s : String) (n : Nat) : Bool := 0 < n && !isBoundary s n

/-- The search for a boundary from a byte offset backwards. It has no result if it goes on below
0. -/
def lastBoundary? (s : String) : Nat → Option Nat
  | 0 => if goesOn s 0 then none else some 0
  | n + 1 => if goesOn s (n + 1) then lastBoundary? s n else some (n + 1)

/-- A text cut to a number of bytes, if search and cut have a result. -/
def truncated? (limit : Nat) (s : String) : Option String :=
  if s.utf8ByteSize ≤ limit then some s else (lastBoundary? s limit).bind (before? s)

theorem isBoundary_zero (s : String) : isBoundary s 0 := by
  rw [isBoundary, String.Pos.Raw.isValid_eq_true_iff]
  exact String.Pos.Raw.isValid_zero

theorem isSome_before? {s : String} {n : Nat} (h : isBoundary s n) : (before? s n).isSome := by
  rw [isBoundary, String.Pos.Raw.isValid_eq_true_iff] at h
  simp [before?, h]

/-- The last boundary at or below a byte offset. -/
structure IsLastBoundary (s : String) (n e : Nat) : Prop where
  le : e ≤ n
  boundary : isBoundary s e
  last : ∀ m, e < m → m ≤ n → isBoundary s m = false

/-- What the search passes over stays behind the boundary that it ends at. -/
theorem IsLastBoundary.succ {s : String} {n e : Nat} (h : IsLastBoundary s n e)
    (hn : isBoundary s (n + 1) = false) : IsLastBoundary s (n + 1) e where
  le := Nat.le_succ_of_le h.le
  boundary := h.boundary
  last m hm hmn := by
    obtain hm' | rfl := Nat.le_succ_iff.mp hmn
    · exact h.last m hm hm'
    · exact hn

/-- The search ends, if only at the start of the text. -/
theorem exists_lastBoundary? (s : String) (n : Nat) :
    ∃ e, lastBoundary? s n = some e ∧ IsLastBoundary s n e := by
  induction n with
  | zero =>
    refine ⟨0, by simp [lastBoundary?, goesOn], Nat.le_refl 0, isBoundary_zero s, ?_⟩
    intro m hm hm'
    omega
  | succ n ih =>
    cases hn : isBoundary s (n + 1) with
    | true =>
      refine ⟨n + 1, by simp [lastBoundary?, goesOn, hn], Nat.le_refl _, hn, ?_⟩
      intro m hm hm'
      omega
    | false =>
      obtain ⟨e, he, hlast⟩ := ih
      exact ⟨e, by simp [lastBoundary?, goesOn, hn, he], hlast.succ hn⟩

theorem isSome_truncated? (limit : Nat) (s : String) : (truncated? limit s).isSome := by
  rw [truncated?]
  split
  · rfl
  · obtain ⟨e, he, hlast⟩ := exists_lastBoundary? s limit
    rw [he]
    exact isSome_before? hlast.boundary

/-- A text cut to a number of bytes. -/
def truncated (limit : Nat) (s : String) : String :=
  (truncated? limit s).get (isSome_truncated? limit s)

/-- A text as it is shown under a limit in bytes: itself if it fits or there is no limit, and
otherwise cut and followed by three dots. -/
def shown (limit : Option Nat) (s : String) : String :=
  match limit with
  | none => s
  | some n => if n < s.utf8ByteSize then truncated n s ++ "..." else s

end TableAccess.Text
