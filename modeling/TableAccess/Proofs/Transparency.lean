import Mathlib.Logic.Function.Basic
import TableAccess.Gateway.Traced
import TableAccess.Proofs.ModelCalls
import TableAccess.Proofs.Selections

/-!
# Tracing changes nothing but the reports

A traced gateway and the one that it wraps go in step: from the same state of the connection they
give the same answer and leave the same state, whatever was reported before. A connection does not
see the reports, so a model over the one gateway and a model over the other go in step as well, for
one operation and for a whole sequence of them.
-/
namespace TableAccess

variable {σ α β : Type}

/-- Two computations give the same result and leave the same state of the connection, even if the
reports that they start with differ. -/
def Lockstep (a b : StateM (Session σ) α) : Prop :=
  ∀ s s' : Session σ, s.state = s'.state → (a s).1 = (b s').1 ∧ (a s).2.state = (b s').2.state

namespace Lockstep

theorem pure (x : α) : Lockstep (pure x : StateM (Session σ) α) (pure x) := by
  intro s s' hs
  exact ⟨rfl, hs⟩

theorem bind {a b : StateM (Session σ) α} {f g : α → StateM (Session σ) β} (h : Lockstep a b)
    (hf : ∀ x, Lockstep (f x) (g x)) : Lockstep (a >>= f) (b >>= g) := by
  intro s s' hs
  obtain ⟨hresult, hstate⟩ := h s s' hs
  have hrest := hf (a s).1 (a s).2 (b s').2 hstate
  change (f (a s).1 (a s).2).1 = (g (b s').1 (b s').2).1 ∧
    (f (a s).1 (a s).2).2.state = (g (b s').1 (b s').2).2.state
  rw [← hresult]
  exact hrest

end Lockstep

namespace Action

/-- Two actions go in step, failures included. -/
def InStep (a b : Action σ α) : Prop := Lockstep a.run b.run

theorem inStep_pure (x : α) : InStep (pure x : Action σ α) (pure x) := Lockstep.pure _

theorem inStep_throw (e : Error) : InStep (throw e : Action σ α) (throw e) := Lockstep.pure _

theorem inStep_ofExcept (r : Except Error α) : InStep (ofExcept r : Action σ α) (ofExcept r) :=
  Lockstep.pure r

theorem inStep_report (events : List Event) :
    InStep (report events : Action σ Unit) (report events) := by
  intro s s' hs
  exact ⟨rfl, hs⟩

theorem inStep_ofLogged {c c' : Logged α} (h : ∀ es es', (c.run es).1 = (c'.run es').1) :
    InStep (ofLogged c : Action σ α) (ofLogged c') := by
  intro s s' hs
  exact ⟨h s.events s'.events, hs⟩

theorem inStep_ofStep (f : σ → Except Error α × σ) : InStep (ofStep f) (ofStep f) := by
  intro s s' hs
  change (f s.state).1 = (f s'.state).1 ∧ (f s.state).2 = (f s'.state).2
  rw [hs]
  exact ⟨rfl, rfl⟩

theorem InStep.bind {a b : Action σ α} {f g : α → Action σ β} (h : InStep a b)
    (hf : ∀ x, InStep (f x) (g x)) : InStep (a >>= f) (b >>= g) := by
  have hcont : ∀ r, Lockstep (ExceptT.bindCont f r) (ExceptT.bindCont g r) := by
    intro r
    cases r with
    | ok x => exact hf x
    | error e => exact Lockstep.pure _
  exact Lockstep.bind h hcont

theorem InStep.recorded {a b : Action σ α} (h : InStep a b) (call : Except Error α → Call) :
    InStep (a.recorded call) (b.recorded call) := by
  intro s s' hs
  obtain ⟨hresult, hstate⟩ := h ⟨s.state.1, s.events⟩ ⟨s'.state.1, s'.events⟩ (congrArg Prod.fst hs)
  refine ⟨hresult, Prod.ext hstate ?_⟩
  change s.state.2 ++ [call (a.run ⟨s.state.1, s.events⟩).1] =
    s'.state.2 ++ [call (b.run ⟨s'.state.1, s'.events⟩).1]
  rw [hresult, hs]

theorem report_run (events : List Event) (s : Session σ) :
    (report events : Action σ Unit).run s = (.ok (), ⟨s.state, s.events ++ events⟩) := rfl

theorem lift_run (a : Action σ α) (s : Session σ) :
    (ExceptT.lift a.run : Action σ (Except Error α)).run s = (.ok (a.run s).1, (a.run s).2) := rfl

/-- Reports before and after an action do not put it out of step. -/
theorem InStep.traceStatement {a b : Action σ α} (h : InStep a b) (t : Tracing) (sql : String)
    (params : List Value) (rows : α → Nat) :
    InStep (Gateway.traceStatement t sql params a rows) b := by
  intro s s' hs
  have hsent := h ⟨s.state, s.events ++ [.executing t.level (StatementKind.ofSql sql) params.length
    (Text.shown t.maxLength sql)]⟩ s' hs
  simp only [Gateway.traceStatement, run_bind, report_run, lift_run]
  revert hsent
  rcases a.run _ with ⟨r, s₁⟩
  cases r <;> exact id

end Action

/-- Two gateways for the same texts whose calls go in step. -/
structure Gateway.InStep (g g' : Gateway σ) : Prop where
  target : g.target = g'.target
  query (sql : String) (params : List Value) :
    (g.query sql params).InStep (g'.query sql params)
  execute (sql : String) (params : List Value) :
    (g.execute sql params).InStep (g'.execute sql params)
  lastKey (sequence : Option String) : (g.lastKey sequence).InStep (g'.lastKey sequence)

namespace Gateway.InStep
variable {g g' : Gateway σ}

theorem ofConnection (c : Connection σ) : (ofConnection c).InStep (.ofConnection c) where
  target := rfl
  query _ _ := Action.inStep_ofStep _
  execute _ _ := Action.inStep_ofStep _
  lastKey _ := Action.inStep_ofStep _

theorem recorded (h : g.InStep g') : g.recorded.InStep g'.recorded where
  target := h.target
  query sql params := (h.query sql params).recorded _
  execute sql params := (h.execute sql params).recorded _
  lastKey sequence := (h.lastKey sequence).recorded _

/-- Tracing keeps a gateway in step. -/
theorem traced (h : g.InStep g') (t : Tracing) : (g.traced t).InStep g' where
  target := h.target
  query sql params := (h.query sql params).traceStatement t sql params List.length
  execute sql params := (h.execute sql params).traceStatement t sql params id
  lastKey sequence := by
    intro s s' hs
    have hsent := h.lastKey sequence s s' hs
    simp only [Gateway.traced, Action.run_bind]
    revert hsent
    rcases (g.lastKey sequence).run s with ⟨r, s₁⟩
    cases r <;> exact id

theorem dialect (h : g.InStep g') : g.dialect = g'.dialect := congrArg Target.dialect h.target

theorem quote (h : g.InStep g') : g.quote = g'.quote := congrArg Target.quote h.target

end Gateway.InStep

namespace Writer
variable {g g' : Gateway σ} (h : g.InStep g') (w : Writer σ)

/-- The same writer over another gateway. -/
def through (w : Writer σ) (g : Gateway σ) : Writer σ := { w with gateway := g }

theorem inStep_preparedInsert (payload : Row) :
    ((w.through g).preparedInsert payload).InStep ((w.through g').preparedInsert payload) :=
  (Action.inStep_report _).bind fun _ => Action.inStep_pure _

theorem inStep_preparedUpdate (payload : Row) :
    ((w.through g).preparedUpdate payload).InStep ((w.through g').preparedUpdate payload) :=
  (Action.inStep_report _).bind fun _ => Action.inStep_pure _

include h

theorem filterExpr_through (criteria : Criteria) :
    (w.through g).filterExpr criteria = (w.through g').filterExpr criteria := by
  simp only [filterExpr, through, h.quote]

theorem inStep_insert (payload : Row) :
    ((w.through g).insert payload).InStep ((w.through g').insert payload) := by
  have hstatement : ∀ row,
      (w.through g).insertStatement row = (w.through g').insertStatement row := by
    intro row
    simp only [insertStatement, through, h.dialect]
  unfold insert
  cases payload.isEmpty with
  | true => exact Action.inStep_throw _
  | false =>
    refine (w.inStep_preparedInsert payload).bind fun row => ?_
    rw [hstatement]
    refine (Action.inStep_ofExcept _).bind fun statement => ?_
    refine (h.execute statement.sql statement.params).bind fun _ => ?_
    simp only [through, h.dialect]
    refine (h.lastKey _).bind fun key => ?_
    exact (Action.inStep_ofExcept _).bind fun key => Action.inStep_pure _

theorem inStep_countMatching (filter : Sql.Expr) :
    ((w.through g).countMatching filter).InStep ((w.through g').countMatching filter) := by
  have hstatement : (w.through g).countStatement filter = (w.through g').countStatement filter := by
    simp only [countStatement, through, h.dialect]
  unfold countMatching
  rw [hstatement]
  exact (h.query _ _).bind fun rows => Action.inStep_ofExcept _

theorem inStep_counted (filter : Sql.Expr) (event : Event) (statement : Sql.Statement) :
    Action.InStep
      (do
        if (← (w.through g).countMatching filter) = 0 then
          Action.report [event]
          return WriteOutcome.noMatchingRows
        return .executed (← g.executeStatement statement))
      (do
        if (← (w.through g').countMatching filter) = 0 then
          Action.report [event]
          return WriteOutcome.noMatchingRows
        return .executed (← g'.executeStatement statement)) := by
  refine (w.inStep_countMatching h filter).bind fun n => ?_
  by_cases hn : n = 0
  · simp only [hn, if_true]
    exact (Action.inStep_report _).bind fun _ => Action.inStep_pure _
  · simp only [hn, if_false]
    exact (h.execute _ _).bind fun _ => Action.inStep_pure _

theorem inStep_updateMatching (payload : Row) (criteria : Criteria) :
    ((w.through g).updateMatching payload criteria).InStep
      ((w.through g').updateMatching payload criteria) := by
  have hstatement : ∀ row filter,
      (w.through g).updateStatement row filter = (w.through g').updateStatement row filter := by
    intro row filter
    simp only [updateStatement, through, h.dialect]
  unfold updateMatching
  cases payload.isEmpty with
  | true => exact Action.inStep_throw _
  | false =>
    refine (w.inStep_preparedUpdate payload).bind fun row => ?_
    rw [w.filterExpr_through h]
    refine (Action.inStep_ofExcept _).bind fun filter => ?_
    rw [hstatement]
    refine (Action.inStep_ofExcept _).bind fun statement => ?_
    exact w.inStep_counted h filter _ statement

theorem inStep_deleteMatching (criteria : Criteria) :
    ((w.through g).deleteMatching criteria).InStep ((w.through g').deleteMatching criteria) := by
  have hstatement : ∀ filter,
      (w.through g).deleteStatement filter = (w.through g').deleteStatement filter := by
    intro filter
    simp only [deleteStatement, through, h.dialect]
  unfold deleteMatching
  cases criteria.isEmpty with
  | true => exact (Action.inStep_report _).bind fun _ => Action.inStep_pure _
  | false =>
    rw [w.filterExpr_through h]
    refine (Action.inStep_ofExcept _).bind fun filter => ?_
    rw [hstatement]
    exact w.inStep_counted h filter _ _

end Writer

/-- The operation with every thing it is about replaced. -/
def Operation.map {ι ρ : Type} (f : ι → ρ) : Operation ι → Operation ρ
  | .fetchRows p => .fetchRows p
  | .fetchAllRows p => .fetchAllRows p
  | .fetchAllRecords p => .fetchAllRecords p
  | .fetchOneRow p => .fetchOneRow p
  | .fetchOneRecord p => .fetchOneRecord p
  | .fetchColumn p => .fetchColumn p
  | .fetchPairs p => .fetchPairs p
  | .fetchValue p => .fetchValue p
  | .insert now payload => .insert now payload
  | .updateMatching now payload criteria => .updateMatching now payload criteria
  | .deleteMatching criteria => .deleteMatching criteria
  | .updateRecord now i => .updateRecord now (f i)
  | .deleteRecord i => .deleteRecord (f i)

/-- An operation with the answer to it. -/
abbrev Operation.Answered (ρ : Type) := Σ o : Operation ρ, Except Error o.Result

namespace Model
variable {ι ρ : Type} [Entity ρ] [DecidableEq ι]

/-- Does what is asked about records that the caller holds. A deletion may change its record. -/
def performOn (m : Model σ) (records : ι → ρ) :
    Operation ι → StateM (Session σ) (Operation.Answered ρ × (ι → ρ))
  | .deleteRecord i => do
    let (outcome, r) ← m.deleteRecord (records i)
    return (⟨.deleteRecord (records i), outcome⟩, Function.update records i r)
  | o => do
    let result ← (m.perform (o.map records)).run
    return (⟨o.map records, result⟩, records)

/-- Does what is asked, one operation after another, whether or not the earlier ones failed. -/
def performAll (m : Model σ) (records : ι → ρ) :
    List (Operation ι) → StateM (Session σ) (List (Operation.Answered ρ) × (ι → ρ))
  | [] => return ([], records)
  | o :: os => do
    let (answer, records) ← m.performOn records o
    let (answers, records) ← m.performAll records os
    return (answer :: answers, records)

variable {g g' : Gateway σ} (h : g.InStep g') (m : Model σ)

/-- The same model over another gateway. -/
def through (m : Model σ) (g : Gateway σ) : Model σ := { m with gateway := g }

include h

theorem inStep_selectRows (p : FetchParams) (disallowed : List ParamKey)
    (forcedLimit : Option Nat) :
    ((m.through g).selectRows p disallowed forcedLimit).InStep
      ((m.through g').selectRows p disallowed forcedLimit) := by
  have hselect : ∀ es es',
      ((p.select g'.target disallowed m.schema.name).run es).1 =
        ((p.select g'.target disallowed m.schema.name).run es').1 := by
    intro es es'
    rw [FetchParams.select_run, FetchParams.select_run]
  unfold selectRows
  simp only [through, h.target]
  exact (Action.inStep_ofLogged hselect).bind fun selection => h.query _ _

theorem inStep_decoded (p : FetchParams) (disallowed : List ParamKey)
    (forcedLimit : Option Nat) (decode : List Row → Except Error α) :
    Action.InStep
      (do
        let rows ← (m.through g).selectRows p disallowed forcedLimit
        Action.ofExcept (decode rows))
      (do
        let rows ← (m.through g').selectRows p disallowed forcedLimit
        Action.ofExcept (decode rows)) :=
  (m.inStep_selectRows h p disallowed forcedLimit).bind fun _ => Action.inStep_ofExcept _

theorem inStep_updateRecord (now : String) (r : ρ) :
    ((m.through g).updateRecord now r).InStep ((m.through g').updateRecord now r) := by
  unfold updateRecord
  cases (Entity.data r).isEmpty with
  | true => exact Action.inStep_pure _
  | false =>
    exact (m.writer now).inStep_updateMatching h (Entity.data r) (m.recordCriteria r)

theorem inStep_deleteRow (r : ρ) :
    ((m.through g).deleteRow r).InStep ((m.through g').deleteRow r) := by
  unfold deleteRow
  cases (Entity.data r).isEmpty with
  | true => exact Action.inStep_pure _
  | false => exact (m.writer "").inStep_deleteMatching h (m.recordCriteria r)

theorem inStep_perform (o : Operation ρ) :
    ((m.through g).perform o).InStep ((m.through g').perform o) := by
  cases o with
  | fetchRows p => exact m.inStep_selectRows h p [] none
  | fetchAllRows p => exact m.inStep_decoded h p [] none _
  | fetchAllRecords p => exact m.inStep_decoded h p [] none _
  | fetchOneRow p => exact m.inStep_decoded h p pagingKeys (some 1) _
  | fetchOneRecord p => exact m.inStep_decoded h p pagingKeys (some 1) _
  | fetchColumn p =>
    exact (Action.inStep_ofExcept _).bind fun p => m.inStep_decoded h p [] none _
  | fetchPairs p =>
    refine (Action.inStep_ofExcept _).bind fun p => ?_
    refine (m.inStep_selectRows h p [] none).bind fun rows => ?_
    exact (Action.inStep_ofExcept _).bind fun pairs => Action.inStep_pure _
  | fetchValue p =>
    refine (Action.inStep_ofExcept _).bind fun p => ?_
    exact m.inStep_decoded h p pagingKeys (some 1) _
  | insert now payload => exact (m.writer now).inStep_insert h payload
  | updateMatching now payload criteria =>
    exact (m.writer now).inStep_updateMatching h payload criteria
  | deleteMatching criteria => exact (m.writer "").inStep_deleteMatching h criteria
  | updateRecord now r => exact m.inStep_updateRecord h now r
  | deleteRecord r =>
    rw [perform_deleteRecord, perform_deleteRecord]
    exact m.inStep_deleteRow h r

theorem lockstep_deleteRecord (r : ρ) :
    Lockstep ((m.through g).deleteRecord r) ((m.through g').deleteRecord r) := by
  unfold deleteRecord
  cases (Entity.data r).isEmpty with
  | true => exact Lockstep.pure _
  | false =>
    have hdelete := (m.writer "").inStep_deleteMatching h (m.recordCriteria r)
    exact Lockstep.bind hdelete fun outcome => Lockstep.pure _

theorem lockstep_performOn (records : ι → ρ) (o : Operation ι) :
    Lockstep ((m.through g).performOn records o) ((m.through g').performOn records o) := by
  -- Only a deletion gives a record back. Every other operation leaves them to its caller.
  have hother : Lockstep
      (do
        let result ← ((m.through g).perform (o.map records)).run
        return ((⟨o.map records, result⟩, records) : Operation.Answered ρ × (ι → ρ)))
      (do
        let result ← ((m.through g').perform (o.map records)).run
        return ((⟨o.map records, result⟩, records) : Operation.Answered ρ × (ι → ρ))) :=
    Lockstep.bind (m.inStep_perform h (o.map records)) fun result => Lockstep.pure _
  cases o with
  | deleteRecord i =>
    exact (m.lockstep_deleteRecord h (records i)).bind fun outcome => Lockstep.pure _
  | _ => exact hother

/-- A sequence of operations goes in step, one operation after another. -/
theorem lockstep_performAll (records : ι → ρ) (os : List (Operation ι)) :
    Lockstep ((m.through g).performAll records os) ((m.through g').performAll records os) := by
  induction os generalizing records with
  | nil => exact Lockstep.pure _
  | cons o os ih =>
    refine (m.lockstep_performOn h records o).bind fun step => ?_
    exact (ih step.2).bind fun rest => Lockstep.pure _

end Model

/-- Whatever a connection answers, and whatever a model is asked to do over it, tracing changes no
answer and no record, nor the calls that the connection gets. -/
theorem tracing_transparent {ι ρ : Type} [Entity ρ] [DecidableEq ι] (c : Connection σ)
    (t : Tracing) (config : Config) (schema : TableSchema) (records : ι → ρ)
    (os : List (Operation ι)) (state : σ) (events : List Event) :
    let g := (Gateway.ofConnection c).recorded
    let start : Session (σ × List Call) := ⟨(state, []), events⟩
    let direct := (Model.mk config schema g).performAll records os start
    let traced := (Model.mk config schema (g.traced t)).performAll records os start
    traced.1 = direct.1 ∧ traced.2.state.1 = direct.2.state.1 ∧
      traced.2.state.2 = direct.2.state.2 := by
  intro g start direct traced
  have hg : (g.traced t).InStep g := (Gateway.InStep.ofConnection c).recorded.traced t
  obtain ⟨hanswers, hstate⟩ :=
    (Model.mk config schema g).lockstep_performAll hg records os start start rfl
  exact ⟨hanswers, congrArg Prod.fst hstate, congrArg Prod.snd hstate⟩

end TableAccess
