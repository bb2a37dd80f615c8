import TableAccess.Proofs.Insertion

/-!
# Payloads without known columns

A payload none of whose columns is in the table has nothing to write, and yet the time is stamped
before the unknown columns are dropped. Such a write is refused exactly if no column carries the
time; otherwise a row of times alone is written.
-/
namespace TableAccess

namespace Writer
variable {σ : Type} (w : Writer σ) {payload : Row} {criteria : Criteria}

/-- Some column of the table carries the time in every row that is inserted. -/
def StampsInserts : Prop :=
  ∃ column ∈ w.insertStamps, column ∈ w.schema.columnNames ∧
    w.isGenerated column (.text w.timestamp) = false

/-- Some column of the table carries the time of the last change. -/
def StampsUpdates : Prop := ∃ column ∈ w.updateStamps, column ∈ w.schema.columnNames

/-- No column of a payload is in the table. -/
def KnowsNoneOf (payload : Row) : Prop := ∀ column ∈ payload.columns, column ∉ w.schema.columnNames

variable {w}

theorem IsPrepared.isEmpty_iff {stamps : List String} {isLeftOut : String → Value → Bool}
    {row : Row} (h : w.IsPrepared stamps isLeftOut payload row) (hunknown : w.KnowsNoneOf payload) :
    row.isEmpty ↔ ¬ ∃ column ∈ stamps, column ∈ w.schema.columnNames ∧
      isLeftOut column (.text w.timestamp) = false := by
  have hmem : ∀ column, column ∈ row.columns ↔ column ∈ stamps ∧ column ∈ w.schema.columnNames ∧
      isLeftOut column (.text w.timestamp) = false := by
    intro column
    rw [h.mem_columns]
    constructor
    · rintro ⟨hknown, hgiven | hstamp, hkept⟩
      · exact absurd hknown (hunknown column hgiven)
      · refine ⟨hstamp, hknown, Bool.eq_false_iff.mpr fun hleft => hkept ⟨_, ?_, hleft⟩⟩
        rw [valueFor?, if_pos hstamp]
    · rintro ⟨hstamp, hknown, hkept⟩
      refine ⟨hknown, .inr hstamp, ?_⟩
      simp [valueFor?, hstamp, hkept]
  have hempty : row.isEmpty ↔ ∀ column, column ∉ row.columns := by
    rw [← List.eq_nil_iff_forall_not_mem, Row.columns, List.map_eq_nil_iff, Row.isEmpty,
      List.isEmpty_iff]
  rw [hempty, not_exists]
  exact forall_congr' fun column => not_congr (hmem column)

theorem isEmpty_prepareInsert_iff (hunknown : w.KnowsNoneOf payload) :
    (w.prepareInsert payload).isEmpty ↔ ¬ w.StampsInserts :=
  (isPrepared_prepareInsert payload).isEmpty_iff hunknown

theorem isEmpty_prepareUpdate_iff (hunknown : w.KnowsNoneOf payload) :
    (w.prepareUpdate payload).isEmpty ↔ ¬ w.StampsUpdates := by
  rw [(isPrepared_prepareUpdate payload).isEmpty_iff hunknown]
  simp [StampsUpdates]

/-- A row for unknown columns holds times alone. -/
theorem IsPrepared.get?_unknown {stamps : List String} {isLeftOut : String → Value → Bool}
    {row : Row} (h : w.IsPrepared stamps isLeftOut payload row) (hunknown : w.KnowsNoneOf payload)
    {column : String} (hcolumn : column ∈ row.columns) :
    row.get? column = some (.text w.timestamp) := by
  obtain ⟨hknown, hgiven | hstamp, -⟩ := (h.mem_columns column).mp hcolumn
  · exact absurd hknown (hunknown column hgiven)
  · rw [h.get?_eq column hcolumn, valueFor?, if_pos hstamp]

/-- A payload without known columns is refused before any call unless a column carries the time,
and then the times alone are written. -/
theorem unknown_refused_iff (w : Writer σ) (payload : Row) (criteria : Criteria) (s : Session σ)
    (hunknown : w.KnowsNoneOf payload) :
    let inserted := ((w.insert payload).run s).1
    let insertion := (w.recorded.insert payload).callsIn s
    let updated := ((w.updateMatching payload criteria).run s).1
    let update := (w.recorded.updateMatching payload criteria).callsIn s
    (insertion = [] ↔ payload.isEmpty ∨ ¬ w.StampsInserts) ∧
      (insertion = [] → inserted = .error (Sql.Insert.emptyPayload w.schema.name)) ∧
      (∀ column ∈ (w.prepareInsert payload).columns,
        (w.prepareInsert payload).get? column = some (.text w.timestamp)) ∧
      (update = [] ↔
        payload.isEmpty ∨ (∃ e, w.filterExpr criteria = .error e) ∨ ¬ w.StampsUpdates) ∧
      (update = [] → ∃ e, updated = .error e) ∧
      (update = [] → ∀ filter, w.filterExpr criteria = .ok filter →
        updated = .error (Sql.Update.emptyPayload w.schema.name)) ∧
      (∀ column ∈ (w.prepareUpdate payload).columns,
        (w.prepareUpdate payload).get? column = some (.text w.timestamp)) := by
  intro inserted insertion updated update
  obtain ⟨hinsertion, hinserted⟩ := insert_refused w payload s
  obtain ⟨hupdate, hfailed, hupdated⟩ := updateMatching_refused w payload criteria s
  rw [isEmpty_prepareInsert_iff hunknown] at hinsertion
  rw [isEmpty_prepareUpdate_iff hunknown] at hupdate
  have hinsertTimes := isPrepared_prepareInsert (w := w) payload
  have hupdateTimes := isPrepared_prepareUpdate (w := w) payload
  exact ⟨hinsertion, hinserted, fun _ => hinsertTimes.get?_unknown hunknown,
    hupdate, hfailed, hupdated, fun _ => hupdateTimes.get?_unknown hunknown⟩

/-- Posts whose changes are not stamped. -/
def createdPosts : Writer Unit := { clockedPosts with updatedColumn := some "published" }

def unknownPost : Row := { entries := [("bogus", .int 1), ("published", .text "dawn")] }

theorem unknown_refused_posts :
    createdPosts.KnowsNoneOf unknownPost ∧ createdPosts.StampsInserts ∧
      ¬ createdPosts.StampsUpdates ∧
      ((createdPosts.updateMatching unknownPost .empty).run ⟨(), []⟩).1 =
        .error (Sql.Update.emptyPayload "posts") ∧
      (createdPosts.recorded.insert unknownPost).callsIn ⟨(), []⟩ ≠ [] := by
  have hunknown : createdPosts.KnowsNoneOf unknownPost := by unfold KnowsNoneOf; decide
  have hstamps : createdPosts.StampsInserts := by unfold StampsInserts; decide
  have hstampless : ¬ createdPosts.StampsUpdates := by unfold StampsUpdates; decide
  obtain ⟨hinserts, -, -, hupdates, -, hupdated, -⟩ :=
    unknown_refused_iff createdPosts unknownPost .empty ⟨(), []⟩ hunknown
  refine ⟨hunknown, hstamps, hstampless, ?_, ?_⟩
  · exact hupdated (hupdates.mpr (.inr (.inr hstampless))) _ rfl
  · rw [ne_eq, hinserts]
    simp [hstamps, unknownPost, Row.isEmpty]

/-- With columns for the times, a payload of one unknown column is written as a row of times. -/
theorem unknown_written_posts :
    clockedPosts.KnowsNoneOf (Row.empty.set "bogus" (.int 1)) ∧
      (clockedPosts.recorded.insert (Row.empty.set "bogus" (.int 1))).callsIn ⟨(), []⟩ =
        [.execute ⟨"INSERT INTO posts (created, changed) VALUES (?, ?)",
            [.text "noon", .text "noon"]⟩ (.ok 1),
          .lastKey none (.ok none)] ∧
      (clockedPosts.recorded.updateMatching (Row.empty.set "bogus" (.int 1)) .empty).callsIn
          ⟨(), []⟩ =
        [.query ⟨"SELECT COUNT(*) AS num_of_matched_records FROM posts", []⟩ (.ok [])] := by
  refine ⟨?_, rfl, rfl⟩
  unfold KnowsNoneOf
  decide

end Writer

end TableAccess
