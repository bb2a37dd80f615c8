import TableAccess.Proofs.DisallowedKeys
import TableAccess.Proofs.Fetches
import TableAccess.Proofs.Paging
import TableAccess.Proofs.Transparency

/-!
# Fetches of a single row

A fetch of a single row passes over the paging that its caller asks for and limits the selection to
one row itself. The statement is that of the selection without paging, but for the limit, so what
the caller asks for shows neither in the calls nor in the result.
-/
namespace TableAccess

variable {σ α : Type}

namespace Sql.Select

/-- The text up to the columns, without a limit. -/
def opening (s : Select) : String := if s.isDistinct then "SELECT DISTINCT" else "SELECT"

/-- The dialect that the paging of a selection is written in, its limit and its offset. -/
def pagedHow (s : Select) : Dialect × Option Nat × Option Nat := (s.dialect, s.limit?, s.offset?)

/-- A selection asks for the first row of what another one asks for. -/
structure AsksForFirst (all one : Select) : Prop where
  limit : one.limit? = some 1
  offset : one.offset? = none
  params : one.build.params = all.build.params
  tail : all.dialect ≠ .sqlserver → one.build.sql = all.build.sql ++ " LIMIT 1"
  top : all.dialect = .sqlserver → ∃ rest,
    all.build.sql = all.opening ++ rest ∧ one.build.sql = all.opening ++ " TOP 1" ++ rest
  noOffset : .own "OFFSET" ∉ one.tokens

variable {s : Select}

theorem tokens_of_unpaged (hlimit : s.limit? = none) (hoffset : s.offset? = none) :
    s.tokens = s.headTokens ++ (s.rowTokens ++ termTokens "ORDER BY" s.orders) := by
  rw [tokens, hlimit, hoffset]
  cases s.dialect <;>
    simp [Dialect.topTokens, Dialect.tailTokens, Dialect.limitTokens, Dialect.offsetTokens]

theorem tokens_limit_of_ne (hd : s.dialect ≠ .sqlserver) (hlimit : s.limit? = none)
    (hoffset : s.offset? = none) (n : Nat) :
    (s.limit n).tokens = s.tokens ++ [.own "LIMIT", .number n] := by
  have htop : s.dialect.topTokens (some n) none = [] := by
    simp [Dialect.topTokens, Dialect.limitsBeforeColumns, hd]
  have htail : s.dialect.tailTokens (some n) none (!s.orders.isEmpty) =
      [.own "LIMIT", .number n] := by
    cases hdialect : s.dialect with
    | sqlserver => exact absurd hdialect hd
    | postgres | mysql | sqlite => rfl
  rw [tokens_of_unpaged hlimit hoffset, tokens]
  simp only [limit, hoffset, htop, htail, List.append_nil, List.append_assoc]
  rfl

theorem tokens_limit_sqlserver (hd : s.dialect = .sqlserver) (hoffset : s.offset? = none)
    (n : Nat) :
    (s.limit n).tokens = s.headTokens ++ [.own "TOP", .number n]
      ++ (s.rowTokens ++ termTokens "ORDER BY" s.orders) := by
  have htop : s.dialect.topTokens (some n) none = [.own "TOP", .number n] := by
    rw [hd]
    rfl
  have htail : s.dialect.tailTokens (some n) none (!s.orders.isEmpty) = [] := by
    rw [hd]
    rfl
  rw [tokens]
  simp only [limit, hoffset, htop, htail, List.append_nil, List.append_assoc]
  rfl

theorem spaced_headTokens (s : Select) : "SELECT" ++ Token.spaced s.headTokens = s.opening := by
  unfold headTokens opening
  cases s.isDistinct <;> rfl

theorem offset_notMem_tokens (hlimit : s.limit? = none) (hoffset : s.offset? = none) :
    .own "OFFSET" ∉ s.tokens := by
  rw [tokens_of_unpaged hlimit hoffset]
  intro hmem
  rcases List.mem_append.mp hmem with hhead | hbody
  · simpa [Token.IsPlain] using s.isPlain_headTokens _ hhead
  · simpa [Token.IsPlain] using s.isPlain_bodyTokens _ hbody

theorem build_params_limit (s : Select) (n : Nat) : (s.limit n).build.params = s.build.params := rfl

/-- A limit of one on a selection without paging. -/
theorem asksForFirst_limit (hlimit : s.limit? = none) (hoffset : s.offset? = none) :
    AsksForFirst s (s.limit 1) where
  limit := rfl
  offset := hoffset
  params := build_params_limit s 1
  tail hd := by
    rw [build_sql_eq, build_sql_eq, tokens_limit_of_ne hd hlimit hoffset, Token.spaced_append,
      ← String.append_assoc]
    rfl
  top hd := by
    refine ⟨Token.spaced (s.rowTokens ++ termTokens "ORDER BY" s.orders), ?_, ?_⟩
    · rw [build_sql_eq, tokens_of_unpaged hlimit hoffset, Token.spaced_append,
        ← String.append_assoc, spaced_headTokens]
    · rw [build_sql_eq, tokens_limit_sqlserver hd hoffset, Token.spaced_append,
        Token.spaced_append, ← String.append_assoc, ← String.append_assoc, spaced_headTokens]
      rfl
  noOffset := by
    have hnone := offset_notMem_tokens hlimit hoffset
    rw [tokens_of_unpaged hlimit hoffset] at hnone
    by_cases hd : s.dialect = .sqlserver
    · rw [tokens_limit_sqlserver hd hoffset]
      simpa using hnone
    · rw [tokens_limit_of_ne hd hlimit hoffset, tokens_of_unpaged hlimit hoffset]
      simpa using hnone

end Sql.Select

namespace FetchParams

def unpaged (p : FetchParams) : FetchParams := { p with limit := none, offset := none }

theorem without_pagingKeys (p : FetchParams) : p.without Model.pagingKeys = p.unpaged := rfl

variable {p : FetchParams} {t : Target} {table : String}

/-- Without paging no parameter says how a selection is paged. -/
theorem apply_unpaged {key : ParamKey} {s s' : Sql.Select}
    (h : p.unpaged.apply t key s = .ok s') : s'.pagedHow = s.pagedHow := by
  cases key with
  | distinct | limit | offset =>
    cases h
    rfl
  | columns =>
    cases h
    cases p.unpaged.columns with
    | none => rfl
    | some names => cases names <;> rfl
  | grouping =>
    cases h
    cases p.unpaged.grouping <;> rfl
  | ordering =>
    cases h
    cases p.unpaged.ordering <;> rfl
  | rowFilter | groupFilter => rcases elim_eq_ok h with rfl | ⟨e, rfl⟩ <;> rfl

theorem foldlM_unpaged {keys : List ParamKey} {s s' : Sql.Select}
    (h : keys.foldlM (p.unpaged.step t []) s = .ok s') : s'.pagedHow = s.pagedHow := by
  induction keys generalizing s with
  | nil =>
    cases h
    rfl
  | cons key keys ih =>
    obtain ⟨s₁, hstep, hrest⟩ := bind_eq_ok.mp h
    exact (ih hrest).trans (apply_unpaged hstep)

theorem selection_unpaged {s : Sql.Select} (h : p.unpaged.selection t [] table = .ok s) :
    s.dialect = t.dialect ∧ s.limit? = none ∧ s.offset? = none := by
  unfold selection at h
  split_ifs at h
  have hpaged : (s.dialect, s.limit?, s.offset?) = (t.dialect, none, none) := foldlM_unpaged h
  simpa only [Prod.mk.injEq] using hpaged

end FetchParams

/-- A selection of the first row only, for parameters that could be prepared. -/
def IsFirstRowPlan (t : Target) (table : String) (prepared : Except Error FetchParams)
    (one : Sql.Select) : Prop :=
  ∃ p all, prepared = .ok p ∧ p.unpaged.selection t [] table = .ok all ∧
    all.dialect = t.dialect ∧ all.AsksForFirst one

/-- The calls of fetching a single row, and what is made of the row. -/
inductive SingleFetched (t : Target) (table : String) (prepared : Except Error FetchParams)
    (decode : Row → Except Error α) : List Call → Except Error (Option α) → Prop
  | unprepared {e : Error} (h : prepared = .error e) :
    SingleFetched t table prepared decode [] (.error e)
  | refused {p : FetchParams} {e : Error} (h : prepared = .ok p)
      (hselection : p.unpaged.selection t [] table = .error e) :
    SingleFetched t table prepared decode [] (.error e)
  | failed {one : Sql.Select} (h : IsFirstRowPlan t table prepared one) (e : Error) :
    SingleFetched t table prepared decode [.query one.build (.error e)] (.error e)
  | nothing {one : Sql.Select} (h : IsFirstRowPlan t table prepared one) :
    SingleFetched t table prepared decode [.query one.build (.ok [])] (.ok none)
  | found {one : Sql.Select} (h : IsFirstRowPlan t table prepared one) (row : Row)
      (others : List Row) :
    SingleFetched t table prepared decode [.query one.build (.ok (row :: others))]
      ((decode row).map some)

namespace Model

/-- A fetch makes its result from the first row that comes back, in one query at most, and the
paging that its caller asks for changes neither. -/
structure FetchesFirst (m : Model σ) (prepare : FetchParams → Except Error FetchParams)
    (decode : Row → Except Error α) (fetch : FetchParams → Action σ (Option α))
    (recorded : FetchParams → Action (σ × List Call) (Option α)) : Prop where
  makes (p : FetchParams) :
    (fetch p).Makes (recorded p)
      (SingleFetched m.gateway.target m.schema.name (prepare p) decode)
  unpaged (p : FetchParams) (limit offset : Option Nat) :
    (recorded p).InStep (recorded { p with limit := limit, offset := offset })

variable (m : Model σ)

theorem plan_pagingKeys (p : FetchParams) :
    m.plan p pagingKeys (some 1) =
      (p.unpaged.selection m.gateway.target [] m.schema.name).map fun s => s.limit 1 := by
  rw [plan, p.selection_without, p.without_pagingKeys]
  rfl

/-- What is fetched with a limit of one is a single row. -/
theorem makes_first (p : FetchParams) (decode : Row → Except Error α) :
    Action.Makes
      (do
        let rows ← m.selectRows p pagingKeys (some 1)
        Action.ofExcept (rows.head?.mapM decode))
      (do
        let rows ← m.recorded.selectRows p pagingKeys (some 1)
        Action.ofExcept (rows.head?.mapM decode))
      (SingleFetched m.gateway.target m.schema.name (.ok p) decode) := by
  have hplan : ∀ {one}, m.plan p pagingKeys (some 1) = .ok one →
      IsFirstRowPlan m.gateway.target m.schema.name (.ok p) one := by
    intro one h
    rw [plan_pagingKeys] at h
    obtain ⟨all, hall, rfl⟩ := map_eq_ok.mp h
    obtain ⟨hdialect, hlimit, hoffset⟩ := FetchParams.selection_unpaged hall
    exact ⟨p, all, rfl, hall, hdialect, Sql.Select.asksForFirst_limit hlimit hoffset⟩
  refine (m.makes_decoded p pagingKeys (some 1) fun rows => rows.head?.mapM decode).mono ?_
  intro cs r hfetched
  cases hfetched with
  | refused h =>
    rw [plan_pagingKeys] at h
    exact .refused rfl (map_eq_error.mp h)
  | failed h e => exact .failed (hplan h) e
  | answered h rows =>
    cases rows with
    | nil => exact .nothing (hplan h)
    | cons row others => exact .found (hplan h) row others

theorem inStep_first (hg : m.gateway.InStep m.gateway) (p : FetchParams)
    (limit offset : Option Nat) (decode : Row → Except Error α) :
    Action.InStep
      (do
        let rows ← m.selectRows p pagingKeys (some 1)
        Action.ofExcept (rows.head?.mapM decode))
      (do
        let rows ←
          m.selectRows { p with limit := limit, offset := offset } pagingKeys (some 1)
        Action.ofExcept (rows.head?.mapM decode)) := by
  have hselect : ∀ es es', ((p.select m.gateway.target pagingKeys m.schema.name).run es).1 =
      (({ p with limit := limit, offset := offset }.select m.gateway.target pagingKeys
        m.schema.name).run es').1 := by
    intro es es'
    rw [FetchParams.select_run, FetchParams.select_run, FetchParams.selection_without,
      FetchParams.selection_without]
    rfl
  exact ((Action.inStep_ofLogged hselect).bind fun _ => hg.query _ _).bind fun _ =>
    Action.inStep_ofExcept _

theorem leadingColumns_paged (p : FetchParams) (limit offset : Option Nat) (needed : Nat)
    (operation : String) :
    leadingColumns { p with limit := limit, offset := offset } needed operation =
      (leadingColumns p needed operation).map fun q =>
        { q with limit := limit, offset := offset } := by
  by_cases h : (p.columns.getD []).length < needed <;> simp [leadingColumns, h, Except.map]

variable (hg : m.recorded.gateway.InStep m.recorded.gateway)
include hg

theorem fetchesFirst_fetchOne [FromRow α] :
    m.FetchesFirst .ok FromRow.ofRow (m.fetchOne α) (m.recorded.fetchOne α) where
  makes p := m.makes_first p FromRow.ofRow
  unpaged p limit offset := m.recorded.inStep_first hg p limit offset FromRow.ofRow

theorem fetchesFirst_fetchValue :
    m.FetchesFirst (leadingColumns · 1 "fetch_value") (·.nth 0) m.fetchValue
      m.recorded.fetchValue where
  makes p := by
    unfold fetchValue
    cases leadingColumns p 1 "fetch_value" with
    | error e =>
      refine (Action.makes_throw e).mono ?_
      rintro cs r ⟨rfl, rfl⟩
      exact .unprepared rfl
    | ok q => exact m.makes_first q (·.nth 0)
  unpaged p limit offset := by
    unfold fetchValue
    rw [leadingColumns_paged p limit offset]
    cases leadingColumns p 1 "fetch_value" with
    | error e => exact Action.inStep_throw e
    | ok q => exact m.recorded.inStep_first hg q limit offset (·.nth 0)

omit hg

/-- Over any connection, what a caller asks for in paging has no influence on a fetch of a single
row, which is made from the first row that the connection answers with. -/
theorem first_row_fetched (c : Connection σ) (config : Config) (schema : TableSchema) :
    let m : Model σ := ⟨config, schema, .ofConnection c⟩
    (∀ (α : Type) [FromRow α],
      m.FetchesFirst .ok FromRow.ofRow (m.fetchOne α) (m.recorded.fetchOne α)) ∧
    m.FetchesFirst (leadingColumns · 1 "fetch_value") (·.nth 0) m.fetchValue
      m.recorded.fetchValue := by
  intro m
  have hg : m.recorded.gateway.InStep m.recorded.gateway :=
    (Gateway.InStep.ofConnection c).recorded
  exact ⟨fun α _ => m.fetchesFirst_fetchOne hg, m.fetchesFirst_fetchValue hg⟩

end Model

end TableAccess
