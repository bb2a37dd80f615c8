import TableAccess.Proofs.PrintedRecords

/-!
# Rows read back from their texts

A row is printed as an object with its columns in order, and the text of the object is read as the
same row, whatever characters its columns and texts have. The columns of a row are distinct, so
reading puts no two of them together.
-/
namespace TableAccess.Row
open Json

/-- Setting the columns of a row one after another makes the row. -/
theorem ofList_entries (r : Row) : ofList r.entries = r := by
  have hmerge : ofList r.entries = empty.merge r := rfl
  have hcolumns : (empty.merge r).columns = r.columns := by
    rw [columns_merge]
    simp [columns, empty]
  rw [hmerge]
  refine ext_get? hcolumns fun k _ => ?_
  rw [get?_merge]
  exact Option.or_none

/-- The members of a printed row are read as its entries. -/
theorem exists_readFromDocument {entries : List (String × Value)}
    (h : ∀ e ∈ entries, e.2.IsExact) :
    ∃ members, Reads (Json.object (entries.map fun e => (e.1, e.2.toJson))).compress.toList
        (.object members) ∧ ReadFromDocument members entries := by
  obtain ⟨ds, hds⟩ := exists_forall₂_iff.mpr fun e he => Value.restores_toJson (h e he)
  refine ⟨_, reads_compress_object (List.forall₂_map_left_iff.mpr (hds.imp fun _ _ hd => hd.1)), ?_⟩
  clear h
  induction hds with
  | nil => exact .nil
  | cons hd _ ih => exact .cons ⟨rfl, hd.2⟩ ih

/-- However a row was made, its text is read as the same row, with the columns in the same order and
each value of the same kind. -/
theorem rows_survive_text (r : Row) (hexact : ∀ v ∈ r.values, v.IsExact) :
    parse? r.toDocumentText = some r := by
  have hentries : ∀ e ∈ r.entries, e.2.IsExact := fun e he =>
    hexact e.2 (List.mem_map_of_mem he)
  obtain ⟨members, hreads, hread⟩ := exists_readFromDocument hentries
  rw [parse?, toDocumentText, hreads.read?, Option.bind_some]
  exact ofDocument?_eq_some.mpr ⟨members, r.entries, rfl, hread, (ofList_entries r).symm⟩

/-- Columns and texts with quotes, backslashes, control characters and characters that take more
than one byte. -/
def awkward : Row where
  entries := [("a\"b\\", .text "\x01\n\u2028é𝄞\""), ("", .null),
    ("ключ", .int (-9223372036854775808)), ("0", .text "0"), ("on", .bool false)]

theorem rows_survive_text_awkward :
    (∀ v ∈ awkward.values, v.IsExact) ∧ parse? awkward.toDocumentText = some awkward := by
  have hexact : ∀ v ∈ awkward.values, v.IsExact := by
    simp [awkward, values, Value.IsExact]
  exact ⟨hexact, rows_survive_text _ hexact⟩

end TableAccess.Row
