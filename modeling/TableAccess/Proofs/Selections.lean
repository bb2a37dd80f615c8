import TableAccess.Fetch.Compile
import TableAccess.Proofs.Lowering

/-!
# Selections without their reports

A selection is made while events are reported. What was reported before has no influence on it, so
there is a selection, or the failure to make one, as a value.
-/
namespace TableAccess

theorem Logged.run_bind {α β : Type} (a : Logged α) (f : α → Logged β) (events : List Event) :
    (a >>= f).run events =
      match a.run events with
      | (.ok x, events') => (f x).run events'
      | (.error e, events') => (.error e, events') := by
  change (ExceptT.bindCont f (a.run events).1 : StateM (List Event) _) (a.run events).2 = _
  rcases a.run events with ⟨r, events'⟩
  cases r <;> rfl

namespace FetchParams

/-- What a parameter does to a selection, unless it is disallowed. -/
def step (p : FetchParams) (t : Target) (disallowed : List ParamKey) (s : Sql.Select)
    (key : ParamKey) : Except Error Sql.Select :=
  if disallowed.contains key then .ok s else p.apply t key s

def selection (p : FetchParams) (t : Target) (disallowed : List ParamKey) (table : String) :
    Except Error Sql.Select :=
  if Text.isAllBlank table then .error noTable
  else compileOrder.foldlM (p.step t disallowed)
    ((Sql.Select.ofTable table).withDialect t.dialect)

variable (p : FetchParams) (t : Target) (disallowed : List ParamKey)

theorem takeParam_run (s : Sql.Select) (key : ParamKey) (events : List Event) :
    ((p.takeParam t disallowed s key).run events).1 = p.step t disallowed s key := by
  unfold takeParam step
  cases disallowed.contains key with
  | true => cases p.has key <;> rfl
  | false => rfl

theorem foldlM_takeParam_run (keys : List ParamKey) (s : Sql.Select) (events : List Event) :
    ((keys.foldlM (p.takeParam t disallowed) s).run events).1 =
      keys.foldlM (p.step t disallowed) s := by
  induction keys generalizing s events with
  | nil => rfl
  | cons key keys ih =>
    have hstep := takeParam_run p t disallowed s key events
    rw [List.foldlM_cons, List.foldlM_cons, Logged.run_bind, ← hstep]
    rcases (p.takeParam t disallowed s key).run events with ⟨r, events'⟩
    cases r with
    | error e => rfl
    | ok s' => exact ih s' events'

theorem select_run (table : String) (events : List Event) :
    ((p.select t disallowed table).run events).1 = p.selection t disallowed table := by
  unfold select selection
  cases Text.isAllBlank table with
  | true => rfl
  | false => exact foldlM_takeParam_run p t disallowed compileOrder _ events

theorem compile_eq (table : String) :
    p.compile t disallowed table = (p.selection t disallowed table).map Sql.Select.build := by
  rw [compile, compileLogged, Logged.run_bind, ← select_run p t disallowed table []]
  rcases (p.select t disallowed table).run [] with ⟨r, events⟩
  cases r <;> rfl

theorem compileJson_eq (table : String) (j : Json) :
    compileJson t disallowed table j =
      ofJson disallowed j >>= fun p => p.compile t disallowed table := by
  unfold compileJson compileJsonLogged
  cases ofJson disallowed j <;> rfl

theorem compileJson_of_ofJson {table : String} {j : Json} (h : ofJson disallowed j = .ok p) :
    compileJson t disallowed table j = p.compile t disallowed table := by
  simp only [compileJson_eq, h, bind, Except.bind]

end FetchParams

end TableAccess
