import TableAccess.Proofs.FilteredWrites
import TableAccess.Proofs.Transparency

/-!
# Writes of single records

A record is written and deleted by criteria with one entry, which compares the primary key with
what the record has for it, null if it has nothing. So every statement that is sent for a record
selects rows by that key, and what becomes of the record itself is settled by the outcome: it is
new again once rows were deleted, and nothing else of it changes.
-/
namespace TableAccess

/-- A statement selects rows by one key: behind its head, in which some values are bound already,
it compares a column with the value that is bound last. -/
def Sql.Statement.KeyedBy (st : Sql.Statement) (d : Dialect) (head : String)
    (written : List Value) (column : String) (key : Value) : Prop :=
  st.params = written ++ [key] ∧
    st.sql = head ++ " WHERE " ++ column ++ " = " ++ d.placeholder st.params.length

/-- A call for a table selects by one key, be it the count or the mutation behind it. -/
def Call.KeyedBy (d : Dialect) (table mutation : String) (written : List Value) (column : String)
    (key : Value) : Call → Prop
  | .query st _ =>
    st.KeyedBy d ("SELECT COUNT(*) AS " ++ countAlias ++ " FROM " ++ table) [] column key
  | .execute st _ => st.KeyedBy d mutation written column key
  | .lastKey _ _ => False

/-- The filter of a single criterion is the comparison with its value. -/
theorem Sql.Statement.FilteredBy.keyedBy {st : Sql.Statement} {t : Target} {head column : String}
    {written : List Value} {key : Value}
    (h : st.FilteredBy t (Criteria.empty.withValue column key) head written) :
    st.KeyedBy t.dialect head written (Text.trim column) key := by
  obtain ⟨atoms, -, hatoms, hsql, hparams⟩ := h
  have hkey : st.params = written ++ [key] := hparams
  refine ⟨hkey, ?_⟩
  have hlength : st.params.length = written.length + 1 := by simp [hkey]
  cases hatoms with
  | cons hatom hrest =>
    cases hrest
    cases hatom
    rw [hsql, hlength, String.intercalate_singleton]
    simp only [String.append_assoc]

theorem Call.FilteredBy.keyedBy {call : Call} {t : Target} {table mutation column : String}
    {written : List Value} {key : Value}
    (h : call.FilteredBy t (Criteria.empty.withValue column key) table mutation written) :
    call.KeyedBy t.dialect table mutation written (Text.trim column) key := by
  cases call with
  | query st answer => exact Sql.Statement.FilteredBy.keyedBy h
  | execute st answer => exact Sql.Statement.FilteredBy.keyedBy h
  | lastKey sequence answer => exact h

namespace Model
variable {σ ρ : Type} [Entity ρ] (m : Model σ) (now : String) (r : ρ)

/-- What a record has for the primary key of a model. -/
def recordKey : Value := (Entity.primaryValue? r m.schema.primaryKey).getD .null

/-- A call for a record selects by the record's own key. -/
def SelectsRecord (mutation : String) (written : List Value) (call : Call) : Prop :=
  call.KeyedBy m.gateway.dialect m.schema.name mutation written (Text.trim m.schema.primaryKey)
    (m.recordKey r)

theorem makes_updateRecord :
    Action.Makes (m.updateRecord now r) (m.recorded.updateRecord now r) fun calls _ =>
      ((Entity.data r).isEmpty → calls = []) ∧
        ∀ call ∈ calls, m.SelectsRecord r
          ((m.writer now).updateHead ((m.writer now).prepareUpdate (Entity.data r)))
          ((m.writer now).prepareUpdate (Entity.data r)).values call := by
  unfold updateRecord
  cases (Entity.data r).isEmpty with
  | true =>
    refine (Action.makes_pure _).mono ?_
    rintro calls outcome ⟨rfl, -⟩
    exact ⟨fun _ => rfl, by simp⟩
  | false =>
    have hupdate := (m.writer now).makes_updateMatching (Entity.data r) (m.recordCriteria r)
    refine hupdate.mono fun calls outcome h => ⟨by simp, fun call hcall => ?_⟩
    exact (h.filteredBy rfl call hcall).keyedBy

theorem makes_deleteRow_keyed :
    Action.Makes (m.deleteRow r) (m.recorded.deleteRow r) fun calls _ =>
      ((Entity.data r).isEmpty → calls = []) ∧
        ∀ call ∈ calls, m.SelectsRecord r ("DELETE FROM " ++ m.schema.name) [] call := by
  refine (m.makes_deleteRow r).mono fun calls outcome h => ?_
  cases h with
  | noData hdata => exact ⟨fun _ => rfl, by simp⟩
  | deleted hdata hcalls =>
    refine ⟨by simp [hdata], fun call hcall => ?_⟩
    exact (hcalls.filteredBy rfl call hcall).keyedBy

variable {r}

/-- Without data neither write does anything. -/
theorem record_run_of_no_data (h : (Entity.data r).isEmpty = true) (s : Session σ) :
    (m.updateRecord now r).run s = (.ok .noMatchingRows, s) ∧
      (m.deleteRecord r).run s = ((.ok .noMatchingRows, r), s) := by
  constructor
  · rw [updateRecord, if_pos h]
    rfl
  · rw [deleteRecord, if_pos h]
    rfl

end Model

/-- A mutation is answered with a number of rows other than zero. -/
def RemovedRows (outcome : Except Error WriteOutcome) : Prop :=
  ∃ n, 0 < n ∧ outcome = .ok (.executed n)

namespace Model

section afterDelete
variable {ρ : Type} [Entity ρ] {r : ρ} {outcome : Except Error WriteOutcome}

theorem afterDelete_of_removed (h : RemovedRows outcome) :
    afterDelete r outcome = Entity.markNew r := by
  obtain ⟨n, hn, rfl⟩ := h
  rw [afterDelete, if_pos hn]

theorem afterDelete_of_not_removed (h : ¬ RemovedRows outcome) : afterDelete r outcome = r := by
  unfold afterDelete
  split
  · next n =>
    have hn : ¬ 0 < n := fun hn => h ⟨n, hn, rfl⟩
    rw [if_neg hn]
  · rfl

/-- A deletion changes exactly what is not new already and had rows that were deleted. -/
theorem afterDelete_ne_iff :
    afterDelete r outcome ≠ r ↔ RemovedRows outcome ∧ Entity.markNew r ≠ r := by
  by_cases hremoved : RemovedRows outcome
  · rw [afterDelete_of_removed hremoved, and_iff_right hremoved]
  · simp [afterDelete_of_not_removed hremoved, hremoved]

/-- A record is changed by being marked as new exactly if it is stored. -/
theorem markNew_ne_iff {r : Record} : Entity.markNew r ≠ r ↔ r.isNew = false := by
  obtain ⟨data, isNew⟩ := r
  change (⟨data, true⟩ : Record) ≠ ⟨data, isNew⟩ ↔ isNew = false
  cases isNew <;> simp

theorem afterDelete_data (r : Record) (outcome : Except Error WriteOutcome) :
    (afterDelete r outcome).data = r.data := by
  by_cases hremoved : RemovedRows outcome
  · rw [afterDelete_of_removed hremoved]
    rfl
  · rw [afterDelete_of_not_removed hremoved]

theorem afterDelete_isNew (r : Record) (outcome : Except Error WriteOutcome) :
    (afterDelete r outcome).isNew = true ↔ r.isNew = true ∨ RemovedRows outcome := by
  by_cases hremoved : RemovedRows outcome
  · rw [afterDelete_of_removed hremoved]
    exact iff_of_true rfl (.inr hremoved)
  · rw [afterDelete_of_not_removed hremoved]
    simp [hremoved]

end afterDelete

end Model

/-- The answer to an operation says that it deleted the rows of a record. -/
def Operation.Answered.RemovedRows {ρ : Type} : Operation.Answered ρ → Prop
  | ⟨.deleteRecord _, outcome⟩ => TableAccess.RemovedRows outcome
  | _ => False

/-- What is left of records when operations on them were answered: their data, and their state
unless rows of theirs were deleted. -/
structure KeptBy {ι : Type} (answers : List (Operation ι × Operation.Answered Record))
    (before after : ι → Record) : Prop where
  data (i : ι) : (after i).data = (before i).data
  isNew (i : ι) : (after i).isNew = true ↔ (before i).isNew = true ∨
    ∃ answer, (.deleteRecord i, answer) ∈ answers ∧ answer.RemovedRows

namespace KeptBy
variable {ι : Type} {before middle after : ι → Record}
  {answers more : List (Operation ι × Operation.Answered Record)}

theorem refl (h : ∀ i answer, (.deleteRecord i, answer) ∉ answers) :
    KeptBy answers before before where
  data _ := rfl
  isNew i := by simp [h]

theorem trans (h : KeptBy answers before middle) (hmore : KeptBy more middle after) :
    KeptBy (answers ++ more) before after where
  data i := (hmore.data i).trans (h.data i)
  isNew i := by
    rw [hmore.isNew, h.isNew, or_assoc]
    simp only [List.mem_append, or_and_right, exists_or]

theorem delete [DecidableEq ι] (before : ι → Record) (i : ι) {answer : Operation.Answered Record}
    {outcome : Except Error WriteOutcome} (h : answer.RemovedRows ↔ RemovedRows outcome) :
    KeptBy [(.deleteRecord i, answer)] before
      (Function.update before i (Model.afterDelete (before i) outcome)) where
  data j := by
    rcases eq_or_ne j i with rfl | hj
    · rw [Function.update_self, Model.afterDelete_data]
    · rw [Function.update_of_ne hj]
  isNew j := by
    rcases eq_or_ne j i with rfl | hj
    · simp [Model.afterDelete_isNew, h]
    · simp [hj]

end KeptBy

namespace Model
variable {σ ι : Type} [DecidableEq ι] (m : Model σ) (s : Session σ)

section performOn
variable {ρ : Type} [Entity ρ] (records : ι → ρ)

/-- Only a deletion of a record gives one back. -/
theorem performOn_records {o : Operation ι} (h : ∀ i, o ≠ .deleteRecord i) :
    ((m.performOn records o).run s).1.2 = records := by
  cases o with
  | deleteRecord i => exact absurd rfl (h i)
  | _ => rfl

theorem performOn_deleteRecord (i : ι) :
    ((m.performOn records (.deleteRecord i)).run s).1.2 = Function.update records i
      (afterDelete (records i) ((m.deleteRecord (records i)).run s).1.1) := by
  have hrun : ((m.performOn records (.deleteRecord i)).run s).1.2 =
      Function.update records i ((m.deleteRecord (records i)).run s).1.2 := rfl
  rw [hrun, deleteRecord_run]

end performOn

/-- One operation changes no record, unless it deletes the rows of one. -/
theorem keptBy_performOn (records : ι → Record) (o : Operation ι) :
    KeptBy [(o, ((m.performOn records o).run s).1.1)] records
      ((m.performOn records o).run s).1.2 := by
  by_cases hdelete : ∃ i, o = .deleteRecord i
  · obtain ⟨i, rfl⟩ := hdelete
    rw [performOn_deleteRecord]
    exact KeptBy.delete records i Iff.rfl
  · have hother : ∀ i, o ≠ .deleteRecord i := fun i hi => hdelete ⟨i, hi⟩
    rw [m.performOn_records s records hother]
    refine KeptBy.refl fun i answer hmem => ?_
    rw [List.mem_singleton, Prod.mk.injEq] at hmem
    exact hother i hmem.1.symm

/-- A run of operations changes no record but those whose rows it deletes. -/
theorem keptBy_performAll (records : ι → Record) (os : List (Operation ι)) :
    KeptBy (os.zip ((m.performAll records os).run s).1.1) records
      ((m.performAll records os).run s).1.2 := by
  induction os generalizing s records with
  | nil => exact KeptBy.refl (by simp)
  | cons o os ih =>
    have hstep := m.keptBy_performOn s records o
    have hrest := ih ((m.performOn records o).run s).2 ((m.performOn records o).run s).1.2
    exact hstep.trans hrest

end Model

/-- Every statement that is sent for a record selects rows by the record's own key, and without data
none is sent. A deletion that removed rows makes the record new, which changes it unless it was new
before, and another deletion leaves it as it is. An update changes no record, and a deletion no
other one, so what a run of operations leaves of records is settled by the rows that were
deleted. -/
theorem Model.record_writes_keyed {σ ι ρ : Type} [DecidableEq ι] [Entity ρ] (m : Model σ)
    (now : String) (records : ι → ρ) (i : ι) (s : Session σ) :
    let r := records i
    let row := (m.writer now).prepareUpdate (Entity.data r)
    let updateCalls := (m.recorded.updateRecord now r).callsIn s
    let deleteCalls := s.callsIn (m.recorded.deleteRecord r)
    let outcome := ((m.deleteRecord r).run s).1.1
    let after := ((m.deleteRecord r).run s).1.2
    ((Entity.data r).isEmpty → updateCalls = [] ∧ deleteCalls = [] ∧
      (m.updateRecord now r).run s = (.ok .noMatchingRows, s) ∧
      (m.deleteRecord r).run s = ((.ok .noMatchingRows, r), s)) ∧
    (∀ call ∈ updateCalls, m.SelectsRecord r ((m.writer now).updateHead row) row.values call) ∧
    (∀ call ∈ deleteCalls, m.SelectsRecord r ("DELETE FROM " ++ m.schema.name) [] call) ∧
    (RemovedRows outcome → after = Entity.markNew r) ∧
    (¬ RemovedRows outcome → after = r) ∧
    (after ≠ r ↔ RemovedRows outcome ∧ Entity.markNew r ≠ r) ∧
    ((m.performOn records (.updateRecord now i)).run s).1.2 = records ∧
    ((m.performOn records (.deleteRecord i)).run s).1.2 = Function.update records i after ∧
    (∀ stored : Record, Entity.markNew stored = { stored with isNew := true } ∧
      (Entity.markNew stored ≠ stored ↔ stored.isNew = false)) ∧
    ∀ (before : ι → Record) (os : List (Operation ι)),
      KeptBy (os.zip ((m.performAll before os).run s).1.1) before
        ((m.performAll before os).run s).1.2 := by
  intro r row updateCalls deleteCalls outcome after
  have hafter : after = afterDelete r outcome := by
    simp only [after, outcome, deleteRecord_run]
  obtain ⟨-, hupdate⟩ := (m.makes_updateRecord now r).callsIn s
  obtain ⟨-, hdelete⟩ := (m.makes_deleteRow_keyed r).callsIn s
  rw [← callsIn_deleteRecord] at hdelete
  refine ⟨fun hdata => ?_, hupdate.2, hdelete.2, ?_, ?_, ?_, ?_, ?_, fun _ => ?_,
    m.keptBy_performAll s⟩
  · exact ⟨hupdate.1 hdata, hdelete.1 hdata, m.record_run_of_no_data now hdata s⟩
  · intro hremoved
    rw [hafter, afterDelete_of_removed hremoved]
  · intro hnone
    rw [hafter, afterDelete_of_not_removed hnone]
  · rw [hafter, afterDelete_ne_iff]
  · exact m.performOn_records s records fun j => nofun
  · rw [performOn_deleteRecord, hafter]
  · exact ⟨rfl, markNew_ne_iff⟩

namespace Model

/-- A stored user and one without data. -/
def twoUsers (stored : Bool) : Record := if stored then ⟨Row.empty.set "id" (.int 7), false⟩ else {}

theorem record_writes_keyed_users :
    users.SelectsRecord (twoUsers true) "DELETE FROM users" []
      (.execute ⟨"DELETE FROM users WHERE id = $1", [.int 7]⟩ (.ok 2)) ∧
    ((users.deleteRecord (twoUsers true)).run ⟨(), []⟩).1.2 = ⟨Row.empty.set "id" (.int 7), true⟩ ∧
    ((users.deleteRecord (twoUsers true)).run ⟨(), []⟩).1.2 ≠ twoUsers true ∧
    ((users.deleteRecord (twoUsers false)).run ⟨(), []⟩).1.2 = twoUsers false ∧
    (users.updateRecord "" (twoUsers false)).run ⟨(), []⟩ = (.ok .noMatchingRows, ⟨(), []⟩) := by
  have hcalls : (⟨(), []⟩ : Session Unit).callsIn (users.recorded.deleteRecord (twoUsers true)) =
      [.query ⟨"SELECT COUNT(*) AS num_of_matched_records FROM users WHERE id = $1", [.int 7]⟩
          (.ok [Row.empty.set countAlias (.int 2)]),
        .execute ⟨"DELETE FROM users WHERE id = $1", [.int 7]⟩ (.ok 2)] := rfl
  obtain ⟨-, -, hkeyed, hnew, -, hchanged, -, -, hmark, -⟩ :=
    record_writes_keyed users "" twoUsers true ⟨(), []⟩
  obtain ⟨hnoData, -, -, -, hkept, -, -, -, -, -⟩ :=
    record_writes_keyed users "" twoUsers false ⟨(), []⟩
  have hremoved : RemovedRows ((users.deleteRecord (twoUsers true)).run ⟨(), []⟩).1.1 :=
    ⟨2, by decide, rfl⟩
  have hnone : ¬ RemovedRows ((users.deleteRecord (twoUsers false)).run ⟨(), []⟩).1.1 := by
    rintro ⟨n, -, h⟩
    cases h
  rw [hcalls] at hkeyed
  refine ⟨?_, hnew hremoved, hchanged.mpr ⟨hremoved, (hmark _).2.mpr rfl⟩, hkept hnone,
    (hnoData rfl).2.2.1⟩
  exact hkeyed _ (List.mem_cons_of_mem _ (List.mem_singleton_self _))

/-- A user that is new already, though there are rows with its key. -/
def unsavedUser : Record := ⟨Row.empty.set "id" (.int 7), true⟩

/-- Deleting the rows of a record that is new already leaves it as it is. -/
theorem record_writes_keyed_unsaved :
    RemovedRows ((users.deleteRecord unsavedUser).run ⟨(), []⟩).1.1 ∧
      ((users.deleteRecord unsavedUser).run ⟨(), []⟩).1.2 = unsavedUser ∧
      ¬ (((users.deleteRecord unsavedUser).run ⟨(), []⟩).1.2 ≠ unsavedUser ↔
        RemovedRows ((users.deleteRecord unsavedUser).run ⟨(), []⟩).1.1) := by
  have hrun : ((users.deleteRecord unsavedUser).run ⟨(), []⟩).1 =
      (.ok (.executed 2), unsavedUser) := rfl
  have hremoved : RemovedRows (.ok (.executed 2)) := ⟨2, by decide, rfl⟩
  rw [hrun]
  exact ⟨hremoved, rfl, fun hiff => hiff.mpr hremoved rfl⟩

end Model

end TableAccess
