import TableAccess.Proofs.ModelCalls
import TableAccess.Proofs.Selections

/-!
# The one call of a fetch

A fetch makes a selection of its parameters, sends its statement, and makes its result from the
rows. What the selection is does not depend on the gateway, and nothing is sent without one.
-/
namespace TableAccess

variable {σ α : Type}

/-- The calls of a fetch and its result. -/
inductive Fetched (plan : Except Error Sql.Select) (decode : List Row → Except Error α) :
    List Call → Except Error α → Prop
  | refused {e : Error} (h : plan = .error e) : Fetched plan decode [] (.error e)
  | failed {s : Sql.Select} (h : plan = .ok s) (e : Error) :
    Fetched plan decode [.query s.build (.error e)] (.error e)
  | answered {s : Sql.Select} (h : plan = .ok s) (rows : List Row) :
    Fetched plan decode [.query s.build (.ok rows)] (decode rows)

namespace FetchParams
variable {t : Target} {table : String} {disallowed : List ParamKey}

/-- No other parameter looks at the columns. -/
theorem apply_withColumns (p : FetchParams) (t : Target) {key : ParamKey} (h : key ≠ .columns)
    (columns : Option (List String)) (cs : List String) (s : Sql.Select) :
    { p with columns := columns }.apply t key { s with columns := cs } =
      (p.apply t key s).map fun s => { s with columns := cs } := by
  cases key with
  | columns => exact absurd rfl h
  | rowFilter | groupFilter =>
    simp only [apply, map_elim]
    rfl
  | distinct => rfl
  | grouping => cases hp : p.grouping <;> simp [apply, hp, Except.map, Sql.Select.groupBy]
  | ordering => cases hp : p.ordering <;> simp [apply, hp, Except.map, Sql.Select.orderBy]
  | limit => cases hp : p.limit <;> simp [apply, hp, Except.map, Sql.Select.limit]
  | offset => cases hp : p.offset <;> simp [apply, hp, Except.map, Sql.Select.offset]

theorem foldlM_withColumns (p : FetchParams) (t : Target) (keys : List ParamKey)
    (h : .columns ∉ keys) (columns : Option (List String)) (cs : List String) (s : Sql.Select) :
    keys.foldlM ({ p with columns := columns }.step t []) { s with columns := cs } =
      (keys.foldlM (p.step t []) s).map fun s => { s with columns := cs } := by
  induction keys generalizing s with
  | nil => rfl
  | cons key keys ih =>
    obtain ⟨hkey, hkeys⟩ := not_or.mp (List.mem_cons.not.mp h)
    have hstep : { p with columns := columns }.step t [] { s with columns := cs } key =
        (p.step t [] s key).map fun s => { s with columns := cs } :=
      p.apply_withColumns t (fun heq => hkey heq.symm) columns cs s
    rw [List.foldlM_cons, List.foldlM_cons, hstep]
    cases p.step t [] s key with
    | error e => rfl
    | ok s' => exact ih hkeys s'

/-- With other columns the same is selected, but for the columns. -/
theorem selection_withColumns (p : FetchParams) (t : Target) (table : String) (cs : List String)
    (h : cs ≠ []) :
    { p with columns := some cs }.selection t [] table =
      (p.selection t [] table).map fun s => { s with columns := cs } := by
  unfold selection
  cases Text.isAllBlank table with
  | true => rfl
  | false =>
    -- What the columns were before they are replaced leaves no trace.
    have hcols : ∀ s : Sql.Select,
        { p.columns.elim s s.cols with columns := cs } = s.cols cs := by
      intro s
      cases p.columns with
      | none => simp [Sql.Select.cols, h]
      | some names => cases names <;> simp [Sql.Select.cols, h]
    let start := ((Sql.Select.ofTable table).withDialect t.dialect).distinct (p.distinct.getD false)
    have hrest := p.foldlM_withColumns t [.rowFilter, .grouping, .groupFilter, .ordering,
      .limit, .offset] (by decide) (some cs) cs (p.columns.elim start start.cols)
    rw [hcols] at hrest
    exact hrest

end FetchParams

namespace Model
variable (m : Model σ)

/-- The selection that a fetch sends the statement of. -/
def plan (p : FetchParams) (disallowed : List ParamKey) (forcedLimit : Option Nat) :
    Except Error Sql.Select :=
  (p.selection m.gateway.target disallowed m.schema.name).map fun s => forcedLimit.elim s s.limit

theorem makes_selectRows (p : FetchParams) (disallowed : List ParamKey)
    (forcedLimit : Option Nat) :
    Action.Makes (m.selectRows p disallowed forcedLimit)
      (m.recorded.selectRows p disallowed forcedLimit)
      (Fetched (m.plan p disallowed forcedLimit) .ok) := by
  have hselected := (Action.makes_ofLogged (σ := σ)
    (p.select m.gateway.target disallowed m.schema.name)).and_result
      (R := fun r => r = p.selection m.gateway.target disallowed m.schema.name)
      fun s => p.select_run _ _ _ s.events
  have hsent : ∀ s : Sql.Select, Action.Makes (m.gateway.queryStatement s.build)
      (m.recorded.gateway.queryStatement s.build)
      fun cs r => cs = [.query s.build r] := fun s => Action.makes_recorded _ _
  refine (hselected.bind fun s => hsent (forcedLimit.elim s s.limit)).mono fun cs r h => ?_
  rcases h with ⟨e, ⟨rfl, hselection⟩, rfl⟩ | ⟨s, cs₁, cs₂, ⟨rfl, hselection⟩, rfl, rfl⟩
  · exact .refused (by rw [plan, ← hselection]; rfl)
  · have hplan : m.plan p disallowed forcedLimit = .ok (forcedLimit.elim s s.limit) := by
      rw [plan, ← hselection]
      rfl
    cases r with
    | error e => exact .failed hplan e
    | ok rows => exact .answered hplan rows

/-- What is made of the rows needs no further call. -/
theorem makes_decoded (p : FetchParams) (disallowed : List ParamKey) (forcedLimit : Option Nat)
    (decode : List Row → Except Error α) :
    Action.Makes
      (do
        let rows ← m.selectRows p disallowed forcedLimit
        Action.ofExcept (decode rows))
      (do
        let rows ← m.recorded.selectRows p disallowed forcedLimit
        Action.ofExcept (decode rows))
      (Fetched (m.plan p disallowed forcedLimit) decode) := by
  refine ((m.makes_selectRows p disallowed forcedLimit).bind fun rows =>
    Action.makes_ofExcept (decode rows)).mono fun cs r h => ?_
  rcases h with ⟨e, hfetched, rfl⟩ | ⟨rows, cs₁, cs₂, hfetched, ⟨rfl, rfl⟩, rfl⟩
  · cases hfetched with
    | refused hplan => exact .refused hplan
    | failed hplan => exact .failed hplan e
  · rw [List.append_nil]
    cases hfetched with
    | answered hplan => exact .answered hplan rows

end Model

end TableAccess
