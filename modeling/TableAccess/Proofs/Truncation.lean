import TableAccess.Proofs.StatementLog

/-!
# Cut texts

A text that is too long for a limit is cut to its longest beginning in whole characters that fits.
The search for the place of the cut keeps all offsets that it passes over inside of characters, so
that it ends at the last boundary within the limit, and that is less than four bytes away since no
character is longer. The log shows statements cut like this, and no other texts of them.
-/
namespace TableAccess

namespace Text
variable {s front : String} {limit n e : Nat}

theorem isValid_iff : (String.Pos.Raw.mk n).IsValid s ↔
    ∃ front rest : String, front ++ rest = s ∧ front.utf8ByteSize = n := by
  rw [String.Pos.Raw.isValid_iff_exists_append]
  constructor
  · rintro ⟨front, rest, hs, hn⟩
    exact ⟨front, rest, hs.symm, (congrArg String.Pos.Raw.byteIdx hn).symm⟩
  · rintro ⟨front, rest, hs, hn⟩
    exact ⟨front, rest, hs.symm, String.Pos.Raw.ext hn.symm⟩

/-- The boundaries are the offsets at which a text falls into two. -/
theorem isBoundary_iff : isBoundary s n ↔
    ∃ front rest : String, front ++ rest = s ∧ front.utf8ByteSize = n := by
  rw [isBoundary, String.Pos.Raw.isValid_eq_true_iff, isValid_iff]

theorem splits_pos {rest : String} (hs : front ++ rest = s) (hn : front.utf8ByteSize = n)
    (h : (String.Pos.Raw.mk n).IsValid s) : (s.pos ⟨n⟩ h).Splits front rest :=
  ⟨hs.symm, String.Pos.Raw.ext hn.symm⟩

/-- A cut at a byte offset gives the beginning of the text with that many bytes. -/
theorem before?_eq_some_iff : before? s n = some front ↔
    front.utf8ByteSize = n ∧ ∃ rest, front ++ rest = s := by
  constructor
  · intro h
    rw [before?] at h
    split at h
    · next hvalid =>
      have hsplits := (s.pos ⟨n⟩ hvalid).splits
      rw [Option.some.inj h] at hsplits
      exact ⟨congrArg String.Pos.Raw.byteIdx hsplits.offset_eq_rawEndPos.symm, _,
        hsplits.eq_append.symm⟩
    · cases h
  · rintro ⟨hn, rest, hs⟩
    have hvalid : (String.Pos.Raw.mk n).IsValid s := isValid_iff.mpr ⟨front, rest, hs, hn⟩
    rw [before?, dif_pos hvalid]
    exact congrArg some ((String.Pos.splits _).eq_left (splits_pos hs hn hvalid))

/-- Of two beginnings of a text the one with fewer bytes is a beginning of the other. -/
theorem exists_append_of_le {front' rest rest' : String} (h : front ++ rest = s)
    (h' : front' ++ rest' = s) (hle : front.utf8ByteSize ≤ front'.utf8ByteSize) :
    ∃ more, front ++ more = front' := by
  have hsplits := splits_pos h rfl (isValid_iff.mpr ⟨front, rest, h, rfl⟩)
  have hsplits' := splits_pos h' rfl (isValid_iff.mpr ⟨front', rest', h', rfl⟩)
  obtain ⟨more, hmore, -⟩ := (hsplits.le_iff_exists_eq_append hsplits').mp hle
  exact ⟨more, hmore.symm⟩

theorem beginning_antisymm {front' more more' : String} (h : front ++ more = front')
    (h' : front' ++ more' = front) : front = front' := by
  have hsize := congrArg String.utf8ByteSize h
  have hsize' := congrArg String.utf8ByteSize h'
  rw [String.utf8ByteSize_append] at hsize hsize'
  have hmore : more = "" := String.utf8ByteSize_eq_zero_iff.mp (by omega)
  rw [← h, hmore, String.append_empty]

/-- The longest beginning of a text in whole characters that has at most `limit` bytes. -/
structure IsLongestWithin (limit : Nat) (s front : String) : Prop where
  beginning : ∃ rest, front ++ rest = s
  boundary : isBoundary s front.utf8ByteSize
  fits : front.utf8ByteSize ≤ limit
  longest : ∀ other rest : String, other ++ rest = s → other.utf8ByteSize ≤ limit →
    ∃ more, other ++ more = front

namespace IsLongestWithin

theorem unique {front' : String} (h : IsLongestWithin limit s front)
    (h' : IsLongestWithin limit s front') : front = front' := by
  obtain ⟨rest, hrest⟩ := h.beginning
  obtain ⟨rest', hrest'⟩ := h'.beginning
  obtain ⟨more, hmore⟩ := h'.longest front rest hrest h.fits
  obtain ⟨more', hmore'⟩ := h.longest front' rest' hrest' h'.fits
  exact beginning_antisymm hmore hmore'

/-- A text that fits is its own longest beginning. -/
theorem self (h : s.utf8ByteSize ≤ limit) : IsLongestWithin limit s s where
  beginning := ⟨"", String.append_empty⟩
  boundary := isBoundary_iff.mpr ⟨s, "", String.append_empty, rfl⟩
  fits := h
  longest _ rest hs _ := ⟨rest, hs⟩

/-- The beginning in front of the last boundary within the limit. -/
theorem ofLastBoundary (h : IsLastBoundary s limit e) (hfront : before? s e = some front) :
    IsLongestWithin limit s front := by
  obtain ⟨rfl, rest, hs⟩ := before?_eq_some_iff.mp hfront
  refine ⟨⟨rest, hs⟩, h.boundary, h.le, ?_⟩
  intro other rest' hs' hother
  refine exists_append_of_le hs' hs ?_
  -- A longer one would end at a boundary that the search has passed over.
  by_contra hlonger
  have hboundary : isBoundary s other.utf8ByteSize := isBoundary_iff.mpr ⟨other, rest', hs', rfl⟩
  rw [h.last _ (by omega) hother] at hboundary
  cases hboundary

/-- If the text goes on, its next character does not fit any more, and no character has more than
four bytes. -/
theorem limit_lt (h : IsLongestWithin limit s front) (hlimit : limit < s.utf8ByteSize) :
    limit < front.utf8ByteSize + 4 := by
  obtain ⟨rest, hs⟩ := h.beginning
  cases hrest : rest.toList with
  | nil =>
    have hfits := h.fits
    rw [String.toList_eq_nil_iff.mp hrest, String.append_empty] at hs
    rw [hs] at hfits
    omega
  | cons c cs =>
    have hnext : front.push c ++ String.ofList cs = s := by
      rw [← hs, ← String.toList_inj]
      simp [hrest]
    by_contra hfits
    have hsize := c.utf8Size_le_four
    obtain ⟨more, hmore⟩ := h.longest _ _ hnext (by rw [String.utf8ByteSize_push]; omega)
    have hfront := congrArg String.utf8ByteSize hmore
    have hpos := c.utf8Size_pos
    rw [String.utf8ByteSize_append, String.utf8ByteSize_push] at hfront
    omega

end IsLongestWithin

theorem truncated?_eq_some (limit : Nat) (s : String) :
    truncated? limit s = some (truncated limit s) := (Option.some_get _).symm

theorem isLongestWithin_truncated (limit : Nat) (s : String) :
    IsLongestWithin limit s (truncated limit s) := by
  have htruncated := truncated?_eq_some limit s
  -- The text is made with the proof that there is one, which would be in the way of rewriting.
  generalize truncated limit s = front at htruncated ⊢
  rw [truncated?] at htruncated
  split at htruncated
  · next hfits =>
    rw [← Option.some.inj htruncated]
    exact .self hfits
  · obtain ⟨e, he, hlast⟩ := exists_lastBoundary? s limit
    rw [he] at htruncated
    exact .ofLastBoundary hlast htruncated

/-- A cut text is settled by being the longest beginning that fits. -/
theorem truncated_eq_iff : truncated limit s = front ↔ IsLongestWithin limit s front := by
  constructor
  · rintro rfl
    exact isLongestWithin_truncated limit s
  · exact (isLongestWithin_truncated limit s).unique

/-- What is shown of a text. -/
inductive ShownAs (s : String) : Option Nat → String → Prop
  | unlimited : ShownAs s none s
  | fitting {limit : Nat} (h : s.utf8ByteSize ≤ limit) : ShownAs s (some limit) s
  | cut {limit : Nat} {front : String} (h : limit < s.utf8ByteSize)
      (hfront : IsLongestWithin limit s front) : ShownAs s (some limit) (front ++ "...")

theorem shownAs_shown (limit : Option Nat) (s : String) : ShownAs s limit (shown limit s) := by
  cases limit with
  | none => exact .unlimited
  | some limit =>
    rw [shown]
    split
    · next h => exact .cut h (isLongestWithin_truncated limit s)
    · next h => exact .fitting (Nat.not_lt.mp h)

theorem ShownAs.eq_shown {limit : Option Nat} {text : String} (h : ShownAs s limit text) :
    shown limit s = text := by
  cases h with
  | unlimited => rfl
  | fitting h => rw [shown, if_neg (Nat.not_lt.mpr h)]
  | cut h hfront => rw [shown, if_pos h, truncated_eq_iff.mpr hfront]

theorem shown_eq_iff {limit : Option Nat} {text : String} :
    shown limit s = text ↔ ShownAs s limit text :=
  ⟨fun h => h ▸ shownAs_shown limit s, ShownAs.eq_shown⟩

end Text

variable {σ : Type}

/-- The text of a statement that an event carries. -/
def Event.sql? : Event → Option String
  | .executing _ _ _ sql => some sql
  | .failed _ _ sql => some sql
  | _ => none

namespace Tracing

/-- The text of a statement is in the log once when it is sent and once more if it fails. -/
theorem sqls_reported (t : Tracing) (c : Call) :
    (t.announced c.request ++ t.behind c).filterMap Event.sql? =
      c.request.statement?.toList.flatMap fun statement =>
        List.replicate (if c.failure?.isSome then 2 else 1)
          (Text.shown t.maxLength statement.sql) := by
  cases c with
  | query statement answer => cases answer <;> rfl
  | execute statement answer => cases answer <;> rfl
  | lastKey sequence answer => cases answer <;> rfl

end Tracing

namespace Gateway

/-- Cutting a text never fails and gives the longest beginning in whole characters that fits, less
than four bytes short of the limit if the text is longer: the search for the place comes to an end
at the last boundary within the limit, where a text can be cut. The texts that the log of a traced
gateway has of a statement are the statement's text, cut like this and marked by three dots only if
it is longer than the limit. -/
theorem statement_texts_cut (g : Gateway σ) (t : Tracing) :
    (∀ (s : String) (n : Nat), ∃ e front, Text.lastBoundary? s n = some e ∧
      Text.IsLastBoundary s n e ∧ Text.before? s e = some front ∧
        (n < s.utf8ByteSize → n < e + 4)) ∧
    (∀ (limit : Nat) (s : String), ∃ front, Text.truncated? limit s = some front ∧
      Text.IsLongestWithin limit s front ∧
        (limit < s.utf8ByteSize → limit < front.utf8ByteSize + 4)) ∧
    (∀ (limit : Option Nat) (s text : String),
      Text.shown limit s = text ↔ Text.ShownAs s limit text) ∧
    ∀ (r : Request) (s : Session σ),
      let run := g.ask r ⟨s.state, s.events ++ t.announced r⟩
      (g.traced t).ask r s = (run.1, ⟨run.2.state, run.2.events ++ t.behind run.1⟩) ∧
        (t.announced r ++ t.behind run.1).filterMap Event.sql? =
          r.statement?.toList.flatMap fun statement =>
            List.replicate (if run.1.failure?.isSome then 2 else 1)
              (Text.shown t.maxLength statement.sql) := by
  refine ⟨?_, ?_, fun _ _ _ => Text.shown_eq_iff, ?_⟩
  · intro s n
    obtain ⟨e, he, hlast⟩ := Text.exists_lastBoundary? s n
    obtain ⟨front, hfront⟩ := Option.isSome_iff_exists.mp (Text.isSome_before? hlast.boundary)
    refine ⟨e, front, he, hlast, hfront, ?_⟩
    rw [← (Text.before?_eq_some_iff.mp hfront).1]
    exact (Text.IsLongestWithin.ofLastBoundary hlast hfront).limit_lt
  · intro limit s
    have hlongest := Text.isLongestWithin_truncated limit s
    exact ⟨_, Text.truncated?_eq_some limit s, hlongest, hlongest.limit_lt⟩
  · intro r s run
    have hsqls := t.sqls_reported run.1
    rw [request_ask] at hsqls
    exact ⟨ask_traced_eq g t r s, hsqls⟩

/-- A text of one, two, three and four byte characters under limits inside of them and at their
ends, and a statement that is cut inside its last character and fails. -/
theorem statement_texts_cut_inside :
    let s := "aé€😀"
    let statement : Sql.Statement := ⟨"DELETE FROM 😀", []⟩
    let g := ofConnection flaky
    Text.IsLongestWithin 0 s "" ∧ Text.IsLongestWithin 2 s "a" ∧ Text.IsLongestWithin 5 s "aé" ∧
      Text.IsLongestWithin 9 s "aé€" ∧ Text.IsLongestWithin 10 s s ∧
      Text.ShownAs statement.sql (some 15) "DELETE FROM ..." ∧
      ((g.traced ⟨.info, some 15⟩).ask (.execute statement) ⟨2, []⟩).2.events =
        [.executing .info .delete 0 "DELETE FROM ...",
          .failed .delete (.gateway "gone") "DELETE FROM ..."] := by
  intro s statement g
  obtain ⟨-, hcut, hshown, hlog⟩ := statement_texts_cut g ⟨.info, some 15⟩
  have hlongest : ∀ limit front, Text.truncated? limit s = some front →
      Text.IsLongestWithin limit s front := by
    intro limit front h
    obtain ⟨front', hfront', hlongest, -⟩ := hcut limit s
    rw [h] at hfront'
    rw [Option.some.inj hfront']
    exact hlongest
  refine ⟨hlongest 0 _ (by decide +kernel), hlongest 2 _ (by decide +kernel),
    hlongest 5 _ (by decide +kernel), hlongest 9 _ (by decide +kernel),
    hlongest 10 _ (by decide +kernel), (hshown _ _ _).mp (by decide +kernel), ?_⟩
  rw [(hlog (.execute statement) ⟨2, []⟩).1]
  decide +kernel

end Gateway

end TableAccess
