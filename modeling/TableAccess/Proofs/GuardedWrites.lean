import TableAccess.Proofs.CountAnswers
import TableAccess.Proofs.FilterStages
import TableAccess.Proofs.FilteredWrites

/-!
# Count, then mutate

Rows are updated or deleted behind a count with the same filter. Whatever the gateway answers,
the two operations make no call, the count alone, or the count and the mutation, and the mutation
only if the count was read as a number other than zero.
-/
namespace TableAccess

/-- A statement counts the rows of a table that meet criteria. -/
def Sql.Statement.Counts (st : Sql.Statement) (t : Target) (table : String)
    (criteria : Criteria) : Prop :=
  st.SelectsBy t criteria ("SELECT COUNT(*) AS num_of_matched_records FROM " ++ table) []

namespace Writer
variable {σ : Type}

/-- What may be seen of a mutation with some head that is sent behind a count. `skipped` says that
it needs no count to know that nothing matches, `refused` that its arguments make no statement. -/
structure IsCountGuarded (w : Writer σ) (criteria : Criteria) (head : String)
    (written : List Value) (skipped refused : Prop) (calls : List Call)
    (outcome : Except Error WriteOutcome) : Prop where
  calls_eq : calls = [] ∨ ∃ count, count.Counts w.gateway.target w.schema.name criteria ∧
    ((∃ answer, calls = [.query count answer]) ∨
      ∃ rows mutation answer, SomeCounted rows countAlias ∧
        mutation.SelectsBy w.gateway.target criteria head written ∧
        calls = [.query count (.ok rows), .execute mutation answer])
  calls_eq_nil_iff : calls = [] ↔ skipped ∨ refused
  sent : ∀ count rows rest, calls = .query count (.ok rows) :: rest →
    SomeCounted rows countAlias → rest ≠ []
  noMatchingRows_iff : outcome = .ok .noMatchingRows ↔
    skipped ∨ ∃ count rows, calls = [.query count (.ok rows)] ∧ NoneCounted rows countAlias
  executed_iff : ∀ n, outcome = .ok (.executed n) ↔
    ∃ query mutation, calls = [query, .execute mutation (.ok n)]
  otherwise : outcome = .ok .noMatchingRows ∨ (∃ n, outcome = .ok (.executed n)) ∨
    ∃ e, outcome = .error e
  unreadable : ∀ count rows rest, calls = .query count (.ok rows) :: rest →
    NotCounted rows countAlias →
      rest = [] ∧ ∃ message, outcome = .error (.decode countAlias message)

variable {w : Writer σ} {criteria : Criteria} {head : String} {written : List Value}
  {skipped refused : Prop} {calls : List Call} {outcome : Except Error WriteOutcome}

theorem isCountGuarded_refused (hs : ¬ skipped) (hr : refused) (e : Error) :
    w.IsCountGuarded criteria head written skipped refused [] (.error e) where
  calls_eq := .inl rfl
  calls_eq_nil_iff := by simp [hr]
  sent count rows rest h := by cases h
  noMatchingRows_iff := by simp [hs]
  executed_iff n := by simp
  otherwise := .inr (.inr ⟨e, rfl⟩)
  unreadable count rows rest h := by cases h

theorem isCountGuarded_skipped (hs : skipped) :
    w.IsCountGuarded criteria head written skipped refused [] (.ok .noMatchingRows) where
  calls_eq := .inl rfl
  calls_eq_nil_iff := by simp [hs]
  sent count rows rest h := by cases h
  noMatchingRows_iff := by simp [hs]
  executed_iff n := by simp
  otherwise := .inl rfl
  unreadable count rows rest h := by cases h

theorem isCountGuarded_counted (hs : ¬ skipped) (hr : ¬ refused) {count mutation : Sql.Statement}
    (hcount : count.Counts w.gateway.target w.schema.name criteria)
    (hmutation : mutation.SelectsBy w.gateway.target criteria head written)
    (h : Counted count mutation calls outcome) :
    w.IsCountGuarded criteria head written skipped refused calls outcome := by
  cases h with
  | failed e =>
    constructor
    case calls_eq => exact .inr ⟨count, hcount, .inl ⟨_, rfl⟩⟩
    case sent => rintro _ _ _ ⟨⟩
    case unreadable => rintro _ _ _ ⟨⟩
    all_goals simp [hs, hr]
  | @unreadable rows e hread =>
    have hnone : ¬ NoneCounted rows countAlias := by simp [← readCount_eq_zero_iff, hread]
    have hsome : ¬ SomeCounted rows countAlias := by simp [← readCount_eq_succ_iff, hread]
    constructor
    case calls_eq => exact .inr ⟨count, hcount, .inl ⟨_, rfl⟩⟩
    case sent =>
      rintro _ _ _ ⟨⟩ h
      exact absurd h hsome
    case noMatchingRows_iff => simp [hs, hnone]
    case unreadable =>
      rintro _ _ _ ⟨⟩ -
      obtain ⟨message, rfl⟩ := eq_decode_of_readCount hread
      exact ⟨rfl, message, rfl⟩
    all_goals simp [hs, hr]
  | @nothing rows hread =>
    have hnone : NoneCounted rows countAlias := readCount_eq_zero_iff.mp hread
    have hsome : ¬ SomeCounted rows countAlias := by simp [← readCount_eq_succ_iff, hread]
    have hreadable : ¬ NotCounted rows countAlias := by simp [← readCount_eq_error_iff, hread]
    constructor
    case calls_eq => exact .inr ⟨count, hcount, .inl ⟨_, rfl⟩⟩
    case sent =>
      rintro _ _ _ ⟨⟩ h
      exact absurd h hsome
    case noMatchingRows_iff => exact ⟨fun _ => .inr ⟨_, rows, rfl, hnone⟩, fun _ => rfl⟩
    case unreadable =>
      rintro _ _ _ ⟨⟩ h
      exact absurd h hreadable
    all_goals simp [hs, hr]
  | @sent rows k hread answer =>
    have hsome : SomeCounted rows countAlias := readCount_eq_succ_iff.mp ⟨k, hread⟩
    have hreadable : ¬ NotCounted rows countAlias := by simp [← readCount_eq_error_iff, hread]
    constructor
    case calls_eq =>
      exact .inr ⟨count, hcount, .inr ⟨rows, mutation, answer, hsome, hmutation, rfl⟩⟩
    case sent =>
      rintro _ _ _ ⟨⟩ -
      exact List.cons_ne_nil _ _
    case unreadable =>
      rintro _ _ _ ⟨⟩ h
      exact absurd h hreadable
    all_goals cases answer <;> simp [hs, hr, Except.map]

/-- Criteria make no filter exactly if something in them cannot be written down. -/
theorem filterExpr_refused_iff :
    (∃ e, w.filterExpr criteria = .error e) ↔ ¬ criteria.toFilter.IsSound := by
  rw [← Filter.exists_toExpr w.gateway.quote .rowFilter]
  change _ ↔ ¬ ∃ e, w.filterExpr criteria = .ok e
  cases w.filterExpr criteria <;> simp

theorem UpdateCalls.isCountGuarded {payload : Row}
    (h : w.UpdateCalls payload criteria calls outcome) :
    w.IsCountGuarded criteria (w.updateHead (w.prepareUpdate payload))
      (w.prepareUpdate payload).values False
      (payload.isEmpty ∨ ¬ criteria.toFilter.IsSound ∨ (w.prepareUpdate payload).isEmpty)
      calls outcome := by
  rw [← filterExpr_refused_iff (w := w), ← updatePlan_refused_iff]
  cases h with
  | refused hplan => exact isCountGuarded_refused not_false ⟨_, hplan⟩ _
  | made hplan hcounted =>
    obtain ⟨filter, hfilter, hcount, hupdate⟩ := updatePlan_eq_ok hplan
    refine isCountGuarded_counted not_false ?_ ?_ (w.selectsBy_updateStatement hfilter hupdate)
      hcounted
    · simp [hplan]
    · exact hcount ▸ w.selectsBy_countStatement hfilter

theorem DeleteCalls.isCountGuarded (h : w.DeleteCalls criteria calls outcome) :
    w.IsCountGuarded criteria ("DELETE FROM " ++ w.schema.name) [] (criteria.isEmpty = true)
      (¬ criteria.toFilter.IsSound) calls outcome := by
  rw [← filterExpr_refused_iff (w := w), ← deletePlan_refused_iff]
  cases h with
  | skipped hempty => exact isCountGuarded_skipped hempty
  | planned hne hcalls =>
    have hs : ¬ criteria.isEmpty = true := by simp [hne]
    cases hcalls with
    | refused hplan => exact isCountGuarded_refused hs ⟨_, hplan⟩ _
    | made hplan hcounted =>
      obtain ⟨filter, hfilter, rfl⟩ := deletePlan_eq_ok hplan
      exact isCountGuarded_counted hs (by simp [hplan]) (w.selectsBy_countStatement hfilter)
        (w.selectsBy_deleteStatement hfilter) hcounted

/-- Whatever the gateway answers, an update or a deletion makes no call, the count of the rows that
meet its criteria, or the count and then the mutation of these rows, which is sent exactly if the
count was read as a number other than zero. -/
theorem writes_count_guarded (w : Writer σ) (payload : Row) (criteria : Criteria)
    (s : Session σ) :
    (let r := (w.updateMatching payload criteria).run s
      let calls := (w.recorded.updateMatching payload criteria).callsIn s
      let row := w.prepareUpdate payload
      (w.recorded.updateMatching payload criteria).run (s.recording []) =
          (r.1, r.2.recording calls) ∧
        w.IsCountGuarded criteria (w.updateHead row) row.values False
          (payload.isEmpty ∨ ¬ criteria.toFilter.IsSound ∨ row.isEmpty) calls r.1) ∧
    (let r := (w.deleteMatching criteria).run s
      let calls := (w.recorded.deleteMatching criteria).callsIn s
      (w.recorded.deleteMatching criteria).run (s.recording []) = (r.1, r.2.recording calls) ∧
        w.IsCountGuarded criteria ("DELETE FROM " ++ w.schema.name) [] (criteria.isEmpty = true)
          (¬ criteria.toFilter.IsSound) calls r.1) := by
  constructor
  · obtain ⟨hrun, h⟩ := (makes_updateMatching w payload criteria).callsIn s
    exact ⟨hrun, h.isCountGuarded⟩
  · obtain ⟨hrun, h⟩ := (makes_deleteMatching w criteria).callsIn s
    exact ⟨hrun, h.isCountGuarded⟩

end Writer

end TableAccess
