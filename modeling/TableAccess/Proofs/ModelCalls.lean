import TableAccess.Model
import TableAccess.Proofs.Plans

/-!
# Calls of a model

The recording gateway under a whole model, and what a model can be asked to do as a type. Deleting
a record is deleting its row and then telling what became of the record, so its calls are those of
deleting the row.
-/
namespace TableAccess

variable {σ : Type}

def Session.callsIn {β : Type} (s : Session σ) (c : StateM (Session (σ × List Call)) β) :
    List Call :=
  (c.run (s.recording [])).2.state.2

namespace Model

def recorded (m : Model σ) : Model (σ × List Call) where
  config := m.config
  schema := m.schema
  gateway := m.gateway.recorded

variable {ρ : Type} [Entity ρ]

def deleteRow (m : Model σ) (r : ρ) : Action σ WriteOutcome :=
  if (Entity.data r).isEmpty then return .noMatchingRows
  else m.deleteMatching (m.recordCriteria r)

theorem deleteRecord_run (m : Model σ) (r : ρ) (s : Session σ) :
    (m.deleteRecord r).run s =
      ((((m.deleteRow r).run s).1, afterDelete r ((m.deleteRow r).run s).1),
        ((m.deleteRow r).run s).2) := by
  unfold deleteRecord deleteRow
  cases (Entity.data r).isEmpty with
  | true => rfl
  | false => rfl

theorem callsIn_deleteRecord (m : Model σ) (r : ρ) (s : Session σ) :
    s.callsIn (m.recorded.deleteRecord r) = (m.recorded.deleteRow r).callsIn s := by
  rw [Session.callsIn, deleteRecord_run]
  rfl

inductive RowCalls (m : Model σ) (r : ρ) : List Call → Except Error WriteOutcome → Prop
  | noData (h : (Entity.data r).isEmpty) : RowCalls m r [] (.ok .noMatchingRows)
  | deleted {calls : List Call} {outcome : Except Error WriteOutcome}
      (h : (Entity.data r).isEmpty = false)
      (hcalls : (m.writer "").DeleteCalls (m.recordCriteria r) calls outcome) :
    RowCalls m r calls outcome

theorem makes_deleteRow (m : Model σ) (r : ρ) :
    Action.Makes (m.deleteRow r) (m.recorded.deleteRow r) (m.RowCalls r) := by
  unfold deleteRow
  cases hdata : (Entity.data r).isEmpty with
  | true =>
    refine (Action.makes_pure _).mono ?_
    rintro cs o ⟨rfl, rfl⟩
    exact .noData hdata
  | false =>
    have hdelete := (m.writer "").makes_deleteMatching (m.recordCriteria r)
    exact hdelete.mono fun cs o h => .deleted hdata h

end Model

/-- What a model can be asked to do, with the arguments. -/
inductive Operation (ρ : Type) where
  | fetchRows (p : FetchParams)
  | fetchAllRows (p : FetchParams)
  | fetchAllRecords (p : FetchParams)
  | fetchOneRow (p : FetchParams)
  | fetchOneRecord (p : FetchParams)
  | fetchColumn (p : FetchParams)
  | fetchPairs (p : FetchParams)
  | fetchValue (p : FetchParams)
  | insert (now : String) (payload : Row)
  | updateMatching (now : String) (payload : Row) (criteria : Criteria)
  | deleteMatching (criteria : Criteria)
  | updateRecord (now : String) (r : ρ)
  | deleteRecord (r : ρ)

def Operation.Result {ρ : Type} : Operation ρ → Type
  | .fetchRows _ | .fetchAllRows _ => List Row
  | .fetchAllRecords _ => List Record
  | .fetchOneRow _ => Option Row
  | .fetchOneRecord _ => Option Record
  | .fetchColumn _ => List Value
  | .fetchPairs _ => Row
  | .fetchValue _ => Option Value
  | .insert _ _ | .updateMatching _ _ _ | .deleteMatching _ | .updateRecord _ _ | .deleteRecord _ =>
    WriteOutcome

namespace Model
variable {ρ : Type} [Entity ρ]

/-- Does what is asked. The record that a deletion hands back is left out. -/
def perform (m : Model σ) : (o : Operation ρ) → Action σ o.Result
  | .fetchRows p => m.fetchRows p
  | .fetchAllRows p => m.fetchAll Row p
  | .fetchAllRecords p => m.fetchAll Record p
  | .fetchOneRow p => m.fetchOne Row p
  | .fetchOneRecord p => m.fetchOne Record p
  | .fetchColumn p => m.fetchColumn p
  | .fetchPairs p => m.fetchPairs p
  | .fetchValue p => m.fetchValue p
  | .insert now payload => m.insert now payload
  | .updateMatching now payload criteria => m.updateMatching now payload criteria
  | .deleteMatching criteria => m.deleteMatching criteria
  | .updateRecord now r => m.updateRecord now r
  | .deleteRecord r => ExceptT.mk (Prod.fst <$> m.deleteRecord r)

theorem perform_deleteRecord (m : Model σ) (r : ρ) :
    m.perform (.deleteRecord r) = m.deleteRow r := by
  funext s
  change (((m.deleteRecord r).run s).1.1, ((m.deleteRecord r).run s).2) = (m.deleteRow r).run s
  rw [deleteRecord_run]
  rfl

end Model

end TableAccess
