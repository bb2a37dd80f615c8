import Mathlib.Data.List.Nodup
import TableAccess.Proofs.Columns
import TableAccess.Write

/-!
# Prepared payloads

A payload is written after it was stamped with the time and reduced to the columns of its table.
`IsPrepared` says which columns are left, in which order and with which values, and no two rows
meet it for one payload. Insertions and updates prepare their payloads in one way; they differ in
the columns that are stamped and in the columns that are left to the database.
-/
namespace TableAccess

namespace Writer
variable {σ : Type} (w : Writer σ)

/-- The column that a configuration names. An empty name names none. -/
def configured (column : Option String) : List String :=
  (column.filter fun c => !c.isEmpty).toList

/-- The columns that carry the time in an inserted row, that of the creation first. -/
def insertStamps : List String := configured w.createdColumn ∪ configured w.updatedColumn

def updateStamps : List String := configured w.updatedColumn

/-- What a column is to hold: the time if it is stamped, and otherwise its value in the payload. -/
def valueFor? (stamps : List String) (payload : Row) (column : String) : Option Value :=
  if column ∈ stamps then some (.text w.timestamp) else payload.get? column

/-- A row as it is to be written for a payload: it has the known columns that are given or stamped,
but for those whose value leaves them out; the given columns come first in their order. -/
structure IsPrepared (stamps : List String) (isLeftOut : String → Value → Bool)
    (payload row : Row) : Prop where
  mem_columns : ∀ column, column ∈ row.columns ↔
    column ∈ w.schema.columnNames ∧ (column ∈ payload.columns ∨ column ∈ stamps) ∧
      ¬ ∃ v, w.valueFor? stamps payload column = some v ∧ isLeftOut column v
  get?_eq : ∀ column ∈ row.columns, row.get? column = w.valueFor? stamps payload column
  order : row.columns.Sublist (payload.columns ++ stamps.filter (· ∉ payload.columns))
  nodup : row.columns.Nodup

section Stamping
variable {w} {payload : Row} {cs : List String}

variable (w) in
/-- A payload with the time in each of some columns. -/
def stampAll (cs : List String) (payload : Row) : Row :=
  cs.foldl (fun row c => row.set c (.text w.timestamp)) payload

theorem get?_stampAll (cs : List String) (payload : Row) (k : String) :
    (w.stampAll cs payload).get? k = w.valueFor? cs payload k := by
  induction cs generalizing payload with
  | nil => rfl
  | cons c cs ih =>
    have hstep : w.stampAll (c :: cs) payload = w.stampAll cs (payload.set c (.text w.timestamp)) :=
      rfl
    rw [hstep, ih]
    by_cases hk : k = c
    · simp [valueFor?, Row.get?_set, hk]
    · simp [valueFor?, Row.get?_set, hk]

/-- Stamping appends the columns that are not there, one after another. -/
theorem columns_stampAll_sublist (cs : List String) (payload : Row) :
    (w.stampAll cs payload).columns.Sublist
      (payload.columns ++ cs.filter (· ∉ payload.columns)) := by
  induction cs generalizing payload with
  | nil => simp [stampAll]
  | cons c cs ih =>
    refine (ih (payload.set c (.text w.timestamp))).trans ?_
    rw [Row.columns_set]
    by_cases hc : c ∈ payload.columns
    · simp [hc]
    · have hfilter : (cs.filter (· ∉ payload.columns ++ [c])).Sublist
          (cs.filter (· ∉ payload.columns)) :=
        List.monotone_filter_right cs fun k hk => by simp_all
      simpa [hc] using hfilter

theorem stamp_eq (column : Option String) (payload : Row) :
    w.stamp column payload =
      w.stampAll ((configured column).filter w.schema.hasColumn) payload := by
  unfold stamp stamped configured
  cases column with
  | none => rfl
  | some c =>
    rw [Option.filter_some, Option.filter_some]
    by_cases hempty : c.isEmpty
    · simp [hempty, stampAll]
    · by_cases hknown : w.schema.hasColumn c
      · simp [hempty, hknown, stampAll]
      · simp [hempty, hknown, stampAll]

theorem configured_cases (column : Option String) :
    configured column = [] ∨ ∃ c, configured column = [c] := by
  unfold configured
  cases column.filter fun c => !c.isEmpty with
  | none => exact .inl rfl
  | some c => exact .inr ⟨c, rfl⟩

/-- A column that is configured twice is stamped once. -/
theorem stampInsert_eq (payload : Row) :
    w.stampInsert payload = w.stampAll (w.insertStamps.filter w.schema.hasColumn) payload := by
  unfold stampInsert insertStamps
  rw [stamp_eq, stamp_eq]
  rcases configured_cases w.createdColumn with hc | ⟨c, hc⟩ <;>
    rcases configured_cases w.updatedColumn with hd | ⟨d, hd⟩ <;> rw [hc, hd]
  · rfl
  · rfl
  · rfl
  · by_cases hcd : c = d
    · subst hcd
      by_cases hknown : w.schema.hasColumn c
      · simp [hknown, stampAll, Row.set_set]
      · simp [hknown, stampAll]
    · have hunion : [c] ∪ [d] = [c] ++ [d] := by simp [hcd]
      rw [hunion, List.filter_append, stampAll, stampAll, stampAll, List.foldl_append]

end Stamping

/-- A payload that is stamped, without unknown columns and without those that are left out. -/
def prepared (stamps : List String) (isLeftOut : String → Value → Bool) (payload : Row) : Row :=
  (w.keepKnown (w.stampAll (stamps.filter w.schema.hasColumn) payload)).filter
    fun column v => !isLeftOut column v

theorem prepareInsert_eq (payload : Row) :
    w.prepareInsert payload = w.prepared w.insertStamps w.isGenerated payload := by
  rw [prepareInsert, stampInsert_eq]
  rfl

theorem prepareUpdate_eq (payload : Row) :
    w.prepareUpdate payload = w.prepared w.updateStamps (fun _ _ => false) payload := by
  rw [prepareUpdate, stamp_eq]
  exact (Row.filter_true _).symm

section Prepared
variable {w} {stamps : List String} {isLeftOut : String → Value → Bool} {payload row row' : Row}

theorem exists_valueFor? {k : String} :
    (∃ v, w.valueFor? stamps payload k = some v) ↔ k ∈ payload.columns ∨ k ∈ stamps := by
  unfold valueFor?
  by_cases hk : k ∈ stamps
  · simp [hk]
  · simp [hk, Row.mem_columns_iff]

theorem get?_prepared {k : String} {v : Value} :
    (w.prepared stamps isLeftOut payload).get? k = some v ↔
      k ∈ w.schema.columnNames ∧ w.valueFor? stamps payload k = some v ∧
        isLeftOut k v = false := by
  rw [prepared, keepKnown, Row.get?_filter, Row.get?_filter, get?_stampAll,
    ← TableSchema.hasColumn_iff]
  by_cases hknown : w.schema.hasColumn k
  · simp [hknown, valueFor?, Option.filter_eq_some_iff]
  · simp [hknown]

theorem isPrepared_prepared (payload : Row) :
    w.IsPrepared stamps isLeftOut payload (w.prepared stamps isLeftOut payload) where
  mem_columns k := by
    rw [Row.mem_columns_iff, ← exists_valueFor? (w := w)]
    constructor
    · rintro ⟨v, hv⟩
      obtain ⟨hknown, hvalue, hkept⟩ := get?_prepared.mp hv
      refine ⟨hknown, ⟨v, hvalue⟩, ?_⟩
      rintro ⟨u, hu, hleft⟩
      obtain rfl : v = u := Option.some.inj (hvalue.symm.trans hu)
      simp [hkept] at hleft
    · rintro ⟨hknown, ⟨v, hvalue⟩, hkept⟩
      refine ⟨v, get?_prepared.mpr ⟨hknown, hvalue, ?_⟩⟩
      exact Bool.eq_false_iff.mpr fun hleft => hkept ⟨v, hvalue, hleft⟩
  get?_eq k hk := by
    obtain ⟨v, hv⟩ := Row.mem_columns_iff.mp hk
    obtain ⟨-, hvalue, -⟩ := get?_prepared.mp hv
    rw [hv, hvalue]
  order := by
    have hfilter : ((stamps.filter w.schema.hasColumn).filter (· ∉ payload.columns)).Sublist
        (stamps.filter (· ∉ payload.columns)) := List.filter_sublist.filter _
    refine (Row.columns_filter_sublist _ _).trans ((Row.columns_filter_sublist _ _).trans ?_)
    exact (columns_stampAll_sublist _ payload).trans (hfilter.append_left _)
  nodup := Row.nodup_columns _

/-- A part of a list without repetitions is known from its members. -/
theorem eq_filter_of_sublist {l all : List String} (h : l.Sublist all) (hall : all.Nodup) :
    l = all.filter (· ∈ l) := by
  induction h with
  | slnil => rfl
  | @cons l all a h ih =>
    obtain ⟨hnotMem, hnodup⟩ := List.nodup_cons.mp hall
    have ha : a ∉ l := fun hmem => hnotMem (h.subset hmem)
    simpa [ha] using ih hnodup
  | @cons_cons l all a h ih =>
    obtain ⟨hnotMem, hnodup⟩ := List.nodup_cons.mp hall
    have hrest : all.filter (· ∈ a :: l) = all.filter (· ∈ l) := by
      refine List.filter_congr fun k hk => ?_
      have hka : k ≠ a := fun hka => hnotMem (hka ▸ hk)
      simp [hka]
    rw [List.filter_cons_of_pos (by simp), hrest, ← ih hnodup]

/-- Only one row is prepared for a payload. -/
theorem IsPrepared.unique (hstamps : stamps.Nodup)
    (h : w.IsPrepared stamps isLeftOut payload row)
    (h' : w.IsPrepared stamps isLeftOut payload row') : row = row' := by
  -- Both lists of columns leave columns out of one list in which none stands twice.
  have hall : (payload.columns ++ stamps.filter (· ∉ payload.columns)).Nodup := by
    refine payload.nodup_columns.append (hstamps.filter _) ?_
    intro k hk hk'
    simp [hk] at hk'
  have hcolumns : row.columns = row'.columns := by
    rw [eq_filter_of_sublist h.order hall, eq_filter_of_sublist h'.order hall]
    refine List.filter_congr fun k _ => ?_
    rw [decide_eq_decide, h.mem_columns, h'.mem_columns]
  refine Row.ext_get? hcolumns fun k hk => ?_
  rw [h.get?_eq k hk, h'.get?_eq k (hcolumns ▸ hk)]

/-- A prepared row is prepared for itself. -/
theorem IsPrepared.self (h : w.IsPrepared stamps isLeftOut payload row) :
    w.IsPrepared stamps isLeftOut row row where
  mem_columns k := by
    constructor
    · intro hk
      obtain ⟨hknown, -, hkept⟩ := (h.mem_columns k).mp hk
      have hvalue : w.valueFor? stamps row k = w.valueFor? stamps payload k := by
        unfold valueFor?
        split_ifs with hstamp
        · rfl
        · rw [h.get?_eq k hk, valueFor?, if_neg hstamp]
      exact ⟨hknown, .inl hk, hvalue ▸ hkept⟩
    · rintro ⟨hknown, hk | hstamp, hkept⟩
      · exact hk
      · refine (h.mem_columns k).mpr ⟨hknown, .inr hstamp, ?_⟩
        simpa only [valueFor?, if_pos hstamp] using hkept
  get?_eq k hk := by
    rw [valueFor?]
    split_ifs with hstamp
    · rw [h.get?_eq k hk, valueFor?, if_pos hstamp]
    · rfl
  order := List.sublist_append_left _ _
  nodup := h.nodup

theorem prepared_prepared (hstamps : stamps.Nodup) (payload : Row) :
    w.prepared stamps isLeftOut (w.prepared stamps isLeftOut payload) =
      w.prepared stamps isLeftOut payload := by
  have hprepared : w.IsPrepared stamps isLeftOut payload (w.prepared stamps isLeftOut payload) :=
    isPrepared_prepared payload
  exact (isPrepared_prepared _).unique hstamps hprepared.self

theorem nodup_configured (column : Option String) : (configured column).Nodup := by
  rcases configured_cases column with hnil | ⟨c, hc⟩
  · simp [hnil]
  · simp [hc]

theorem nodup_insertStamps : w.insertStamps.Nodup :=
  (nodup_configured w.updatedColumn).union _

theorem mem_configured {column : Option String} {c : String} :
    c ∈ configured column ↔ column = some c ∧ c ≠ "" := by
  simp [configured, Option.filter_eq_some_iff]

theorem isPrepared_prepareInsert (payload : Row) :
    w.IsPrepared w.insertStamps w.isGenerated payload (w.prepareInsert payload) :=
  w.prepareInsert_eq payload ▸ isPrepared_prepared payload

theorem isPrepared_prepareUpdate (payload : Row) :
    w.IsPrepared w.updateStamps (fun _ _ => false) payload (w.prepareUpdate payload) :=
  w.prepareUpdate_eq payload ▸ isPrepared_prepared payload

/-- A column that an update does not stamp is written as the payload has it. -/
theorem get?_prepareUpdate {column : String} (hcolumn : column ∉ w.updateStamps) :
    (w.prepareUpdate payload).get? column =
      if column ∈ w.schema.columnNames then payload.get? column else none := by
  refine Option.ext fun v => ?_
  rw [prepareUpdate_eq, get?_prepared, valueFor?, if_neg hcolumn]
  split_ifs with hknown
  · simp [hknown]
  · simp [hknown]

end Prepared

/-- What a prepared payload holds, and in which order, for insertions and for updates. Preparing a
row once more changes nothing, and an update does not stamp the column of the creation, unless that
is the column of the last change too. -/
theorem payloads_prepared (w : Writer σ) (payload : Row) :
    w.IsPrepared w.insertStamps w.isGenerated payload (w.prepareInsert payload) ∧
      w.IsPrepared w.updateStamps (fun _ _ => false) payload (w.prepareUpdate payload) ∧
      (∀ column, w.createdColumn = some column → w.updatedColumn ≠ some column →
        (w.prepareUpdate payload).get? column =
          if column ∈ w.schema.columnNames then payload.get? column else none) ∧
      w.prepareInsert (w.prepareInsert payload) = w.prepareInsert payload ∧
      w.prepareUpdate (w.prepareUpdate payload) = w.prepareUpdate payload := by
  refine ⟨isPrepared_prepareInsert payload, isPrepared_prepareUpdate payload, ?_, ?_, ?_⟩
  · intro column _ hupdated
    exact get?_prepareUpdate fun hmem => hupdated (mem_configured.mp hmem).1
  · rw [prepareInsert_eq, prepareInsert_eq]
    exact prepared_prepared nodup_insertStamps payload
  · rw [prepareUpdate_eq, prepareUpdate_eq]
    exact prepared_prepared (nodup_configured _) payload

/-- Posts with a generated key and both times. -/
def clockedPosts : Writer Unit where
  gateway := .ofConnection {
    dialect := .sqlite
    query := fun _ _ _ => (.ok [], ())
    execute := fun _ _ _ => (.ok 1, ())
    lastKey := fun _ _ => (.ok none, ()) }
  schema := ⟨"posts", [(Column.ofType "id" "int").generated, .ofType "title" "text",
    .ofType "created" "text", .ofType "changed" "text"], "id"⟩
  createdColumn := some "created"
  updatedColumn := some "changed"
  timestamp := "noon"

def draftPost : Row where
  entries := [("id", .text ""), ("created", .text "dawn"), ("bogus", .int 1), ("title", .text "Hi")]

/-- The post as it is inserted. -/
def insertedPost : Row where
  entries := [("created", .text "noon"), ("title", .text "Hi"), ("changed", .text "noon")]

/-- The post as an update writes it. -/
def updatedPost : Row where
  entries := [("id", .text ""), ("created", .text "dawn"), ("title", .text "Hi"),
    ("changed", .text "noon")]

theorem payloads_prepared_posts :
    clockedPosts.IsPrepared ["created", "changed"] clockedPosts.isGenerated draftPost
        insertedPost ∧
      (clockedPosts.prepareUpdate draftPost).get? "created" = some (.text "dawn") ∧
      clockedPosts.prepareUpdate (clockedPosts.prepareUpdate draftPost) = updatedPost := by
  obtain ⟨hinsert, -, hcreated, -, hagain⟩ := payloads_prepared clockedPosts draftPost
  exact ⟨hinsert, hcreated "created" rfl (by decide), hagain.trans rfl⟩

/-- With one column for both times, an update stamps the column of the creation. -/
theorem prepareUpdate_stamps_created :
    let w : Writer Unit := { clockedPosts with createdColumn := some "changed" }
    w.createdColumn = some "changed" ∧
      (w.prepareUpdate (Row.empty.set "changed" (.text "dawn"))).get? "changed" =
        some (.text "noon") := by
  decide

end Writer

end TableAccess
