import Mathlib.Logic.Basic
import TableAccess.Proofs.Calls

/-!
# Plans of writes

What a write may send is settled by its arguments before anything is sent, and a write that is
refused sends nothing. The answers of the gateway decide how much of the plan is carried out: a
mutation goes behind its count, and the question for a generated key behind its insertion.
-/
namespace TableAccess

/-- The calls of a write that carries out a plan, and its result. -/
inductive Planned {π : Type} (plan : Except Error π)
    (carriedOut : π → List Call → Except Error WriteOutcome → Prop) :
    List Call → Except Error WriteOutcome → Prop
  | refused {e : Error} (h : plan = .error e) : Planned plan carriedOut [] (.error e)
  | made {p : π} (h : plan = .ok p) {calls : List Call} {outcome : Except Error WriteOutcome}
      (hcalls : carriedOut p calls outcome) : Planned plan carriedOut calls outcome

namespace Planned
variable {π : Type} {plan : Except Error π} {p : π} {e : Error}
  {carriedOut : π → List Call → Except Error WriteOutcome → Prop} {calls : List Call}
  {outcome : Except Error WriteOutcome}

theorem of_error (h : Planned plan carriedOut calls outcome) (hplan : plan = .error e) :
    calls = [] ∧ outcome = .error e := by
  cases h with
  | refused hrefused =>
    cases hrefused.symm.trans hplan
    exact ⟨rfl, rfl⟩
  | made hmade => cases hmade.symm.trans hplan

/-- A plan that is carried out with calls makes none exactly if it is refused. -/
theorem calls_eq_nil_iff (h : Planned plan carriedOut calls outcome)
    (hcalls : ∀ {p calls outcome}, carriedOut p calls outcome → calls ≠ []) :
    calls = [] ↔ ∃ e, plan = .error e := by
  cases h with
  | refused hrefused => exact iff_of_true rfl ⟨_, hrefused⟩
  | made hmade hcarried => simp [hcalls hcarried, hmade]

end Planned

/-- The calls of a mutation that is sent behind its count, and the result. -/
inductive Counted (count mutation : Sql.Statement) :
    List Call → Except Error WriteOutcome → Prop
  | failed (e : Error) : Counted count mutation [.query count (.error e)] (.error e)
  | unreadable {rows : List Row} {e : Error} (h : readCount rows countAlias = .error e) :
    Counted count mutation [.query count (.ok rows)] (.error e)
  | nothing {rows : List Row} (h : readCount rows countAlias = .ok 0) :
    Counted count mutation [.query count (.ok rows)] (.ok .noMatchingRows)
  | sent {rows : List Row} {k : Nat} (h : readCount rows countAlias = .ok (k + 1))
      (answer : Except Error Nat) :
    Counted count mutation [.query count (.ok rows), .execute mutation answer]
      (answer.map .executed)

/-- The calls of an insertion and its result, which comes from the answer for the generated key. -/
inductive Inserted (insertion : Sql.Statement) (sequence : Option String)
    (finish : Option Value → Except Error WriteOutcome) :
    List Call → Except Error WriteOutcome → Prop
  | failed (e : Error) :
    Inserted insertion sequence finish [.execute insertion (.error e)] (.error e)
  | sent (n : Nat) (answer : Except Error (Option Value)) :
    Inserted insertion sequence finish [.execute insertion (.ok n), .lastKey sequence answer]
      (answer >>= finish)

namespace Writer
variable {σ : Type}

section plans
variable (w : Writer σ)

/-- The command of an insertion. -/
def insertPlan (payload : Row) : Except Error Sql.Statement :=
  if payload.isEmpty then .error (Sql.Insert.emptyPayload w.schema.name)
  else w.insertStatement (w.prepareInsert payload)

/-- The count and the command of an update. -/
def updatePlan (payload : Row) (criteria : Criteria) :
    Except Error (Sql.Statement × Sql.Statement) :=
  if payload.isEmpty then .error (Sql.Update.emptyPayload w.schema.name)
  else do
    let filter ← w.filterExpr criteria
    let update ← w.updateStatement (w.prepareUpdate payload) filter
    return (w.countStatement filter, update)

/-- The count and the command of a deletion with criteria. -/
def deletePlan (criteria : Criteria) : Except Error (Sql.Statement × Sql.Statement) :=
  (w.filterExpr criteria).map fun filter => (w.countStatement filter, w.deleteStatement filter)

def keySequence? : Option String :=
  w.gateway.dialect.keySequence? w.schema.name w.schema.primaryKey

/-- The result of an insertion whose generated key was asked for. -/
def withKey (row : Row) (key : Option Value) : Except Error WriteOutcome :=
  (requireKey key w.schema.name w.schema.primaryKey).map fun key =>
    .inserted (row.set w.schema.primaryKey key)

/-- The calls of an update and its result. -/
def UpdateCalls (payload : Row) (criteria : Criteria) :
    List Call → Except Error WriteOutcome → Prop :=
  Planned (w.updatePlan payload criteria) fun plan => Counted plan.1 plan.2

/-- The calls of a deletion and its result. -/
inductive DeleteCalls (criteria : Criteria) : List Call → Except Error WriteOutcome → Prop
  | skipped (h : criteria.isEmpty) : DeleteCalls criteria [] (.ok .noMatchingRows)
  | planned (h : criteria.isEmpty = false) {calls : List Call} {outcome : Except Error WriteOutcome}
      (hcalls : Planned (w.deletePlan criteria) (fun plan => Counted plan.1 plan.2) calls outcome) :
    DeleteCalls criteria calls outcome

end plans

theorem DeleteCalls.eq_nil_of_isEmpty {w : Writer σ} {criteria : Criteria} {calls : List Call}
    {outcome : Except Error WriteOutcome} (h : w.DeleteCalls criteria calls outcome)
    (hempty : criteria.isEmpty) : calls = [] := by
  cases h with
  | skipped => rfl
  | planned hne => cases hne.symm.trans hempty

theorem DeleteCalls.of_not_isEmpty {w : Writer σ} {criteria : Criteria} {calls : List Call}
    {outcome : Except Error WriteOutcome} (h : w.DeleteCalls criteria calls outcome)
    (hne : criteria.isEmpty = false) :
    Planned (w.deletePlan criteria) (fun plan => Counted plan.1 plan.2) calls outcome := by
  cases h with
  | skipped hempty => cases hne.symm.trans hempty
  | planned _ hcalls => exact hcalls

theorem makes_countMatching (w : Writer σ) (filter : Sql.Expr) :
    Action.Makes (w.countMatching filter) (w.recorded.countMatching filter) fun cs r =>
      ∃ answer, cs = [.query (w.countStatement filter) answer] ∧
        r = answer >>= fun rows => readCount rows countAlias := by
  have hquery := Action.makes_recorded
    (w.gateway.query (w.countStatement filter).sql (w.countStatement filter).params)
    (.query (w.countStatement filter))
  have hread := hquery.bind fun rows => Action.makes_ofExcept (readCount rows countAlias)
  refine hread.mono fun cs r h => ?_
  rcases h with ⟨e, rfl, rfl⟩ | ⟨rows, cs₁, cs₂, rfl, ⟨rfl, rfl⟩, rfl⟩
  · exact ⟨.error e, rfl, rfl⟩
  · exact ⟨.ok rows, rfl, rfl⟩

theorem makes_executed (w : Writer σ) (statement : Sql.Statement) :
    Action.Makes
      (do return WriteOutcome.executed (← w.gateway.executeStatement statement))
      (do return WriteOutcome.executed (← w.recorded.gateway.executeStatement statement))
      fun cs r => ∃ answer, cs = [.execute statement answer] ∧ r = answer.map .executed := by
  have hexecute := Action.makes_recorded (w.gateway.execute statement.sql statement.params)
    (.execute statement)
  have hreturn := hexecute.bind fun n => Action.makes_pure (WriteOutcome.executed n)
  refine hreturn.mono fun cs r h => ?_
  rcases h with ⟨e, rfl, rfl⟩ | ⟨n, cs₁, cs₂, rfl, ⟨rfl, rfl⟩, rfl⟩
  · exact ⟨.error e, rfl, rfl⟩
  · exact ⟨.ok n, rfl, rfl⟩

theorem makes_nothing (event : Event) :
    Action.Makes (do Action.report (σ := σ) [event]; return WriteOutcome.noMatchingRows)
      (do Action.report [event]; return WriteOutcome.noMatchingRows)
      fun cs r => cs = [] ∧ r = .ok .noMatchingRows :=
  Action.Makes.bind_silent (Action.makes_report [event]) (Action.makes_pure _)

/-- A mutation behind its count makes the calls that it should. -/
theorem makes_counted (w : Writer σ) (filter : Sql.Expr) (event : Event)
    (statement : Sql.Statement) :
    Action.Makes
      (do
        if (← w.countMatching filter) = 0 then
          Action.report [event]
          return .noMatchingRows
        return .executed (← w.gateway.executeStatement statement))
      (do
        if (← w.recorded.countMatching filter) = 0 then
          Action.report [event]
          return .noMatchingRows
        return .executed (← w.recorded.gateway.executeStatement statement))
      (Counted (w.countStatement filter) statement) := by
  have hcount := makes_countMatching w filter
  refine (hcount.bind (Q := fun n cs r => (n = 0 ∧ cs = [] ∧ r = .ok .noMatchingRows) ∨
    n ≠ 0 ∧ ∃ answer, cs = [.execute statement answer] ∧ r = answer.map .executed) ?_).mono ?_
  · intro n
    by_cases hn : n = 0
    · simp only [hn, if_true]
      exact (makes_nothing event).mono fun cs r h => .inl ⟨trivial, h⟩
    · simp only [hn, if_false]
      exact (makes_executed w statement).mono fun cs r h => .inr ⟨hn, h⟩
  · rintro cs r (⟨e, ⟨answer, rfl, hr⟩, rfl⟩ | ⟨n, cs₁, cs₂, ⟨answer, rfl, hn⟩, h, rfl⟩)
    · cases answer with
      | error e' =>
        obtain rfl : e = e' := Except.error.inj hr
        exact .failed e
      | ok rows => exact .unreadable hr.symm
    · cases answer with
      | error e => cases hn
      | ok rows =>
        rcases h with ⟨rfl, rfl, rfl⟩ | ⟨hne, answer, rfl, rfl⟩
        · exact .nothing hn.symm
        · obtain ⟨k, rfl⟩ := Nat.exists_eq_succ_of_ne_zero hne
          exact .sent hn.symm answer

theorem makes_preparedUpdate (w : Writer σ) (payload : Row) :
    Action.Makes (w.preparedUpdate payload) (w.recorded.preparedUpdate payload)
      fun cs r => cs = [] ∧ r = .ok (w.prepareUpdate payload) :=
  Action.Makes.bind_silent (Action.makes_report (w.updateEvents payload)) (Action.makes_pure _)

theorem makes_preparedInsert (w : Writer σ) (payload : Row) :
    Action.Makes (w.preparedInsert payload) (w.recorded.preparedInsert payload)
      fun cs r => cs = [] ∧ r = .ok (w.prepareInsert payload) :=
  Action.Makes.bind_silent (Action.makes_report (w.insertEvents payload)) (Action.makes_pure _)

theorem makes_keyed (w : Writer σ) (row : Row) :
    Action.Makes
      (do
        let key ← w.gateway.lastKey w.keySequence?
        let key ← Action.ofExcept (requireKey key w.schema.name w.schema.primaryKey)
        return WriteOutcome.inserted (row.set w.schema.primaryKey key))
      (do
        let key ← w.recorded.gateway.lastKey w.keySequence?
        let key ← Action.ofExcept (requireKey key w.schema.name w.schema.primaryKey)
        return WriteOutcome.inserted (row.set w.schema.primaryKey key))
      fun cs r => ∃ answer, cs = [.lastKey w.keySequence? answer] ∧
        r = answer >>= w.withKey row := by
  have hkey := Action.makes_recorded (w.gateway.lastKey w.keySequence?) (.lastKey w.keySequence?)
  have hresult : ∀ key : Option Value, Action.Makes (σ := σ)
      (do
        let key ← Action.ofExcept (requireKey key w.schema.name w.schema.primaryKey)
        return WriteOutcome.inserted (row.set w.schema.primaryKey key))
      (do
        let key ← Action.ofExcept (requireKey key w.schema.name w.schema.primaryKey)
        return WriteOutcome.inserted (row.set w.schema.primaryKey key))
      (fun cs r => cs = [] ∧ r = w.withKey row key) := by
    intro key
    unfold withKey
    cases requireKey key w.schema.name w.schema.primaryKey with
    | error e => exact Action.makes_throw e
    | ok key => exact Action.makes_pure _
  refine (hkey.bind hresult).mono fun cs r h => ?_
  rcases h with ⟨e, rfl, rfl⟩ | ⟨key, cs₁, cs₂, rfl, ⟨rfl, rfl⟩, rfl⟩
  · exact ⟨.error e, rfl, rfl⟩
  · exact ⟨.ok key, rfl, rfl⟩

/-- What is refused makes no call. -/
theorem makes_refused {π : Type} {plan : Except Error π} {e : Error}
    {carriedOut : π → List Call → Except Error WriteOutcome → Prop} (hplan : plan = .error e) :
    Action.Makes (throw e : Action σ WriteOutcome) (throw e) (Planned plan carriedOut) := by
  refine (Action.makes_throw e).mono ?_
  rintro cs r ⟨rfl, rfl⟩
  exact .refused hplan

theorem makes_insert (w : Writer σ) (payload : Row) :
    Action.Makes (w.insert payload) (w.recorded.insert payload)
      (Planned (w.insertPlan payload) fun insertion =>
        Inserted insertion w.keySequence? (w.withKey (w.prepareInsert payload))) := by
  unfold insert insertPlan
  cases payload.isEmpty with
  | true => exact makes_refused rfl
  | false =>
    refine (makes_preparedInsert w payload).bind_silent ?_
    have hrecorded : w.recorded.insertStatement (w.prepareInsert payload) =
      w.insertStatement (w.prepareInsert payload) := rfl
    rw [hrecorded]
    simp only [Bool.false_eq_true, if_false]
    cases hstatement : w.insertStatement (w.prepareInsert payload) with
    | error e => exact makes_refused rfl
    | ok statement =>
      have hexecute := Action.makes_recorded (w.gateway.execute statement.sql statement.params)
        (.execute statement)
      refine (hexecute.bind fun _ => w.makes_keyed (w.prepareInsert payload)).mono fun cs r h => ?_
      rcases h with ⟨e, rfl, rfl⟩ | ⟨n, cs₁, cs₂, rfl, ⟨answer, rfl, rfl⟩, rfl⟩
      · exact .made rfl (.failed e)
      · exact .made rfl (.sent n answer)

theorem makes_updateMatching (w : Writer σ) (payload : Row) (criteria : Criteria) :
    Action.Makes (w.updateMatching payload criteria) (w.recorded.updateMatching payload criteria)
      (w.UpdateCalls payload criteria) := by
  unfold updateMatching UpdateCalls updatePlan
  cases payload.isEmpty with
  | true => exact makes_refused rfl
  | false =>
    refine (makes_preparedUpdate w payload).bind_silent ?_
    have hrecorded : w.recorded.filterExpr criteria = w.filterExpr criteria := rfl
    rw [hrecorded]
    cases hfilter : w.filterExpr criteria with
    | error e => exact makes_refused rfl
    | ok filter =>
      have hupdate : w.recorded.updateStatement (w.prepareUpdate payload) filter =
        w.updateStatement (w.prepareUpdate payload) filter := rfl
      simp only [Action.ofExcept_ok_bind, Bool.false_eq_true, if_false]
      rw [hupdate]
      cases hstatement : w.updateStatement (w.prepareUpdate payload) filter with
      | error e => exact makes_refused (by simp [bind, Except.bind, hstatement])
      | ok statement =>
        have hplan : (w.updateStatement (w.prepareUpdate payload) filter >>= fun update =>
            .ok (w.countStatement filter, update)) = .ok (w.countStatement filter, statement) := by
          simp [bind, Except.bind, hstatement]
        exact (makes_counted w filter _ _).mono fun cs r h => .made hplan h

theorem makes_deleteMatching (w : Writer σ) (criteria : Criteria) :
    Action.Makes (w.deleteMatching criteria) (w.recorded.deleteMatching criteria)
      (w.DeleteCalls criteria) := by
  unfold deleteMatching
  cases hempty : criteria.isEmpty with
  | true =>
    simp only [if_true]
    refine (Action.makes_report _).bind_silent ((Action.makes_pure _).mono ?_)
    rintro cs r ⟨rfl, rfl⟩
    exact .skipped hempty
  | false =>
    have hrecorded : w.recorded.filterExpr criteria = w.filterExpr criteria := rfl
    simp only [Bool.false_eq_true, if_false, hrecorded]
    cases hfilter : w.filterExpr criteria with
    | error e =>
      have hplan : w.deletePlan criteria = .error e := by rw [deletePlan, hfilter]; rfl
      simp only [Action.ofExcept_error_bind]
      exact (makes_refused hplan).mono fun cs r h => .planned hempty h
    | ok filter =>
      have hplan : w.deletePlan criteria =
          .ok (w.countStatement filter, w.deleteStatement filter) := by
        rw [deletePlan, hfilter]
        rfl
      simp only [Action.ofExcept_ok_bind]
      exact (makes_counted w filter _ _).mono fun cs r h => .planned hempty (.made hplan h)

end Writer

end TableAccess
