import TableAccess.Proofs.Lowering
import TableAccess.Proofs.ModelCalls

/-!
# Refusals before calls, failures after them

Arguments are checked before the first call of a gateway, and a call that fails is the last one.
Each operation is put together from parts that make no call and parts that refuse nothing, and the
parts may only stand in that order.
-/
namespace TableAccess

/-- Kinds of errors that find fault with the arguments. -/
def ErrorKind.isRefusal (k : ErrorKind) : Bool :=
  k.isBadParam || k == .emptyPayload || k == .tableNameNotConfigured

variable {σ α β : Type}

def Call.failureOf : Except Error α → Option Error
  | .error e => some e
  | .ok _ => none

/-- The error that a call was answered with. -/
def Call.failure? : Call → Option Error
  | .query _ answer => failureOf answer
  | .execute _ answer => failureOf answer
  | .lastKey _ answer => failureOf answer

theorem Call.failureOf_eq_some {r : Except Error α} {e : Error} :
    failureOf r = some e ↔ r = .error e := by
  cases r <;> simp [failureOf]

/-- A result that finds no fault with the arguments. -/
def NotRefused (r : Except Error α) : Prop := ∀ e, r = .error e → e.kind.isRefusal = false

theorem notRefused_ok (x : α) : NotRefused (.ok x : Except Error α) := by
  intro e h
  cases h

/-- Nothing is refused after a call, a call that fails is the last one and its error is the result,
and there are not many calls. -/
structure Disciplined (limit : Nat) (calls : List Call) (r : Except Error α) : Prop where
  calls_of_refusal : ∀ e, r = .error e → e.kind.isRefusal → calls = []
  failed_last : ∀ before call after e, calls = before ++ call :: after →
    call.failure? = some e → after = [] ∧ r = .error e
  length_le : calls.length ≤ limit

/-- Nothing is refused at all, so that this may follow other calls. -/
structure Sends (limit : Nat) (calls : List Call) (r : Except Error α) : Prop
    extends Disciplined limit calls r where
  notRefused : NotRefused r

section
variable {k l : Nat} {calls calls₁ calls₂ : List Call}

theorem disciplined_nil (r : Except Error α) : Disciplined k [] r where
  calls_of_refusal _ _ _ := rfl
  failed_last before call after e h := by simp at h
  length_le := Nat.zero_le k

theorem sends_nil {r : Except Error α} (h : NotRefused r) : Sends k [] r :=
  ⟨disciplined_nil r, h⟩

theorem sends_singleton {call : Call} {r : Except Error α}
    (hcall : ∀ e, call.failure? = some e → r = .error e)
    (hr : NotRefused r) : Sends 1 [call] r where
  calls_of_refusal e he hrefusal := by simp [hr e he] at hrefusal
  failed_last before c after e hsplit hfailure := by
    cases before with
    | nil =>
      obtain ⟨rfl, rfl⟩ := List.cons.inj hsplit
      exact ⟨rfl, hcall e hfailure⟩
    | cons b bs => simp at hsplit
  length_le := Nat.le_refl 1
  notRefused := hr

theorem Disciplined.mono {r : Except Error α} (h : Disciplined k calls r) (hk : k ≤ l) :
    Disciplined l calls r :=
  ⟨h.calls_of_refusal, h.failed_last, Nat.le_trans h.length_le hk⟩

/-- An error ends what follows, whatever was to become of the result. -/
theorem Disciplined.error {e : Error} (h : Disciplined k calls (.error e : Except Error α))
    (hk : k ≤ l) : Disciplined l calls (.error e : Except Error β) where
  calls_of_refusal e' he' hrefusal := by
    cases he'
    exact h.calls_of_refusal e rfl hrefusal
  failed_last before call after e' hsplit hfailure := by
    obtain ⟨hafter, he⟩ := h.failed_last before call after e' hsplit hfailure
    cases he
    exact ⟨hafter, rfl⟩
  length_le := Nat.le_trans h.length_le hk

theorem Disciplined.append {x : α} {r : Except Error β}
    (h₁ : Disciplined k calls₁ (.ok x : Except Error α)) (h₂ : Sends l calls₂ r) :
    Disciplined (k + l) (calls₁ ++ calls₂) r where
  calls_of_refusal e he hrefusal := by simp [h₂.notRefused e he] at hrefusal
  failed_last before call after e hsplit hfailure := by
    rcases List.append_eq_append_iff.mp hsplit with ⟨m, -, hl⟩ | ⟨m, hl, hcalls⟩
    · exact h₂.failed_last m call after e hl hfailure
    · cases m with
      | nil => exact h₂.failed_last [] call after e hcalls.symm hfailure
      | cons c rest =>
        -- The first part has a result, so none of its calls failed.
        obtain ⟨rfl, -⟩ := List.cons.inj hcalls
        obtain ⟨-, hx⟩ := h₁.failed_last before call rest e hl hfailure
        cases hx
  length_le := by
    have h₁' := h₁.length_le
    have h₂' := h₂.length_le
    rw [List.length_append]
    omega

theorem Sends.append {x : α} {r : Except Error β}
    (h₁ : Sends k calls₁ (.ok x : Except Error α)) (h₂ : Sends l calls₂ r) :
    Sends (k + l) (calls₁ ++ calls₂) r :=
  ⟨h₁.toDisciplined.append h₂, h₂.notRefused⟩

end

namespace Action
variable {k l : Nat} {a : Action σ α} {b : Action (σ × List Call) α} {f : α → Action σ β}
  {g : α → Action (σ × List Call) β}

theorem Makes.disciplined (h : Makes a b (Sends k)) : Makes a b (Disciplined k) :=
  h.mono fun _ _ hsends => hsends.toDisciplined

/-- What refuses nothing may follow what is disciplined. -/
theorem Makes.disciplined_bind (h : Makes a b (Disciplined k))
    (hf : ∀ x, Makes (f x) (g x) (Sends l)) :
    Makes (a >>= f) (b >>= g) (Disciplined (k + l)) := by
  refine (h.bind hf).mono ?_
  rintro cs r (⟨e, herror, rfl⟩ | ⟨x, cs₁, cs₂, hfirst, hsecond, rfl⟩)
  · exact herror.error (Nat.le_add_right k l)
  · exact hfirst.append hsecond

theorem Makes.sends_bind (h : Makes a b (Sends k)) (hf : ∀ x, Makes (f x) (g x) (Sends l)) :
    Makes (a >>= f) (b >>= g) (Sends (k + l)) := by
  refine (h.bind hf).mono ?_
  rintro cs r (⟨e, herror, rfl⟩ | ⟨x, cs₁, cs₂, hfirst, hsecond, rfl⟩)
  · refine ⟨herror.toDisciplined.error (Nat.le_add_right k l), ?_⟩
    rintro e' he'
    cases he'
    exact herror.notRefused e rfl
  · exact hfirst.append hsecond

/-- What makes no call may refuse anything, in front of what is disciplined. -/
theorem Makes.disciplined_of_silent (h : Makes a b fun cs _ => cs = [])
    (hf : ∀ x, Makes (f x) (g x) (Disciplined k)) :
    Makes (a >>= f) (b >>= g) (Disciplined k) := by
  refine (h.bind hf).mono ?_
  rintro cs r (⟨e, rfl, rfl⟩ | ⟨x, cs₁, cs₂, rfl, hsecond, rfl⟩)
  · exact disciplined_nil _
  · exact hsecond

theorem sends_pure (x : α) : Makes (pure x : Action σ α) (pure x) (Sends 0) := by
  refine (makes_pure x).mono ?_
  rintro cs r ⟨rfl, rfl⟩
  exact sends_nil (notRefused_ok _)

theorem sends_ofExcept {r : Except Error α} (h : NotRefused r) :
    Makes (ofExcept r : Action σ α) (ofExcept r) (Sends 0) := by
  refine (makes_ofExcept r).mono ?_
  rintro cs r' ⟨rfl, rfl⟩
  exact sends_nil h

theorem disciplined_throw (e : Error) :
    Makes (throw e : Action σ α) (throw e) (Disciplined k) := by
  refine (makes_throw e).mono ?_
  rintro cs r ⟨rfl, -⟩
  exact disciplined_nil r

end Action

theorem Error.isRefusal_of_isGateway {e : Error} (h : e.isGateway) : e.kind.isRefusal = false := by
  cases e with
  | gateway cause => rfl
  | invalid | decode | config => cases h

namespace Gateway

/-- The failures of a gateway are marked as such. -/
structure FailsAsGateway (g : Gateway σ) : Prop where
  query : ∀ sql params s e, ((g.query sql params).run s).1 = .error e → e.isGateway
  execute : ∀ sql params s e, ((g.execute sql params).run s).1 = .error e → e.isGateway
  lastKey : ∀ sequence s e, ((g.lastKey sequence).run s).1 = .error e → e.isGateway

theorem sends_recorded {a : Action σ α} {call : Except Error α → Call}
    (ha : ∀ s e, (a.run s).1 = .error e → e.isGateway)
    (hcall : ∀ r, (call r).failure? = Call.failureOf r) :
    Action.Makes a (a.recorded call) (Sends 1) := by
  have hresult := (Action.makes_recorded a call).and_result
    (R := fun r => ∀ e, r = .error e → e.isGateway) ha
  refine hresult.mono ?_
  rintro cs r ⟨rfl, hr⟩
  have hfailure : ∀ e, (call r).failure? = some e → r = .error e := by
    intro e he
    rw [hcall] at he
    exact Call.failureOf_eq_some.mp he
  exact sends_singleton hfailure fun e he => Error.isRefusal_of_isGateway (hr e he)

variable {g : Gateway σ} (hg : g.FailsAsGateway)
include hg

theorem sends_query (statement : Sql.Statement) :
    Action.Makes (g.queryStatement statement) (g.recorded.queryStatement statement) (Sends 1) :=
  sends_recorded (hg.query _ _) fun _ => rfl

theorem sends_execute (statement : Sql.Statement) :
    Action.Makes (g.executeStatement statement) (g.recorded.executeStatement statement)
      (Sends 1) :=
  sends_recorded (hg.execute _ _) fun _ => rfl

theorem sends_lastKey (sequence : Option String) :
    Action.Makes (g.lastKey sequence) (g.recorded.lastKey sequence) (Sends 1) :=
  sends_recorded (hg.lastKey _) fun _ => rfl

end Gateway

namespace Writer
variable {w : Writer σ} (hw : w.gateway.FailsAsGateway)

theorem notRefused_readCount (rows : List Row) (label : String) :
    NotRefused (readCount rows label) := by
  intro e h
  unfold readCount at h
  split at h
  · cases h
  · split at h
    · cases h
      rfl
    · cases h
    · split at h
      · split_ifs at h
        cases h
        rfl
      · cases h
        rfl

theorem notRefused_requireKey (key : Option Value) (table primaryKey : String) :
    NotRefused (requireKey key table primaryKey) := by
  intro e h
  cases key with
  | none =>
    cases h
    rfl
  | some v =>
    simp only [requireKey] at h
    split_ifs at h
    cases h
    rfl

include hw

theorem sends_countMatching (filter : Sql.Expr) :
    Action.Makes (w.countMatching filter) (w.recorded.countMatching filter) (Sends 1) :=
  (Gateway.sends_query hw _).sends_bind fun _ =>
    Action.sends_ofExcept (notRefused_readCount _ _)

theorem sends_counted (filter : Sql.Expr) (event : Event) (statement : Sql.Statement) :
    Action.Makes
      (do
        if (← w.countMatching filter) = 0 then
          Action.report [event]
          return WriteOutcome.noMatchingRows
        return .executed (← w.gateway.executeStatement statement))
      (do
        if (← w.recorded.countMatching filter) = 0 then
          Action.report [event]
          return WriteOutcome.noMatchingRows
        return .executed (← w.recorded.gateway.executeStatement statement))
      (Sends 2) := by
  refine (sends_countMatching hw filter).sends_bind (l := 1) fun n => ?_
  by_cases hn : n = 0
  · simp only [hn, if_true]
    refine (makes_nothing event).mono ?_
    rintro cs r ⟨rfl, rfl⟩
    exact sends_nil (notRefused_ok _)
  · simp only [hn, if_false]
    exact (Gateway.sends_execute hw statement).sends_bind fun _ => Action.sends_pure _

theorem disciplined_deleteMatching (criteria : Criteria) :
    Action.Makes (w.deleteMatching criteria) (w.recorded.deleteMatching criteria)
      (Disciplined 2) := by
  unfold deleteMatching
  cases criteria.isEmpty with
  | true =>
    refine (makes_nothing (.deleteWithoutCriteria w.schema.name)).mono ?_
    rintro cs r ⟨rfl, -⟩
    exact disciplined_nil r
  | false =>
    exact (Action.makes_ofExcept (w.filterExpr criteria)).silent.disciplined_of_silent fun filter =>
      (sends_counted hw filter _ _).disciplined

theorem disciplined_updateMatching (payload : Row) (criteria : Criteria) :
    Action.Makes (w.updateMatching payload criteria) (w.recorded.updateMatching payload criteria)
      (Disciplined 2) := by
  unfold updateMatching
  cases payload.isEmpty with
  | true => exact Action.disciplined_throw _
  | false =>
    -- The update is rendered, and so refused, before its count is sent.
    refine (makes_preparedUpdate w payload).silent.disciplined_of_silent fun row => ?_
    refine (Action.makes_ofExcept (w.filterExpr criteria)).silent.disciplined_of_silent
      fun filter => ?_
    refine (Action.makes_ofExcept (w.updateStatement row filter)).silent.disciplined_of_silent
      fun statement => ?_
    exact (sends_counted hw filter _ statement).disciplined

theorem disciplined_insert (payload : Row) :
    Action.Makes (w.insert payload) (w.recorded.insert payload) (Disciplined 2) := by
  unfold insert
  cases payload.isEmpty with
  | true => exact Action.disciplined_throw _
  | false =>
    refine (makes_preparedInsert w payload).silent.disciplined_of_silent fun row => ?_
    refine (Action.makes_ofExcept (w.insertStatement row)).silent.disciplined_of_silent
      fun statement => ?_
    -- From here on only a row without a generated key is an error of the library's own.
    refine ((Gateway.sends_execute hw statement).sends_bind (l := 1) fun _ => ?_).disciplined
    refine (Gateway.sends_lastKey hw _).sends_bind (l := 0) fun key => ?_
    refine (Action.sends_ofExcept (notRefused_requireKey key _ _)).sends_bind (l := 0) fun key => ?_
    exact Action.sends_pure _

end Writer

/-- No result is refused because of its rows. -/
def Decodes (f : β → Except Error α) : Prop := ∀ x, NotRefused (f x)

namespace Decodes

theorem mapM {f : β → Except Error α} (h : Decodes f) : Decodes (List.mapM f) := by
  intro xs e he
  obtain ⟨x, -, hx⟩ := exists_mem_of_mapM_eq_error he
  exact h x e hx

theorem optionMapM {f : β → Except Error α} (h : Decodes f) : Decodes (Option.mapM f) := by
  intro x e he
  cases x with
  | none => cases he
  | some x =>
    rcases bind_eq_error.mp he with hx | ⟨y, -, hpure⟩
    · exact h x e hx
    · cases hpure

theorem nth (i : Nat) : Decodes fun row : Row => row.nth i := by
  intro row e h
  simp only [Row.nth] at h
  split at h
  · cases h
  · cases h
    rfl

theorem pairOf : Decodes Model.pairOf := by
  intro row e h
  rcases bind_eq_error.mp h with hkey | ⟨key, -, hrest⟩
  · exact nth 0 row e hkey
  · rcases bind_eq_error.mp hrest with hvalue | ⟨value, -, hpure⟩
    · exact nth 1 row e hvalue
    · cases hpure

theorem ofRow_row : Decodes (FromRow.ofRow : Row → Except Error Row) := by
  intro row e h
  cases h

theorem ofRow_record : Decodes (FromRow.ofRow : Row → Except Error Record) := by
  intro row e h
  cases h

end Decodes

namespace Model
variable {m : Model σ} (hm : m.gateway.FailsAsGateway)
include hm

theorem disciplined_selectRows (p : FetchParams) (disallowed : List ParamKey)
    (forcedLimit : Option Nat) :
    Action.Makes (m.selectRows p disallowed forcedLimit)
      (m.recorded.selectRows p disallowed forcedLimit) (Disciplined 1) :=
  (Action.makes_ofLogged _).disciplined_of_silent fun _ => (Gateway.sends_query hm _).disciplined

theorem disciplined_decoded (p : FetchParams) (disallowed : List ParamKey)
    (forcedLimit : Option Nat) {decode : List Row → Except Error α} (h : Decodes decode) :
    Action.Makes
      (do
        let rows ← m.selectRows p disallowed forcedLimit
        Action.ofExcept (decode rows))
      (do
        let rows ← m.recorded.selectRows p disallowed forcedLimit
        Action.ofExcept (decode rows))
      (Disciplined 1) :=
  (disciplined_selectRows hm p disallowed forcedLimit).disciplined_bind fun rows =>
    Action.sends_ofExcept (h rows)

theorem disciplined_fetchAll [FromRow α] (h : Decodes (FromRow.ofRow : Row → Except Error α))
    (p : FetchParams) :
    Action.Makes (m.fetchAll α p) (m.recorded.fetchAll α p) (Disciplined 1) :=
  disciplined_decoded hm p [] none h.mapM

theorem disciplined_fetchOne [FromRow α] (h : Decodes (FromRow.ofRow : Row → Except Error α))
    (p : FetchParams) :
    Action.Makes (m.fetchOne α p) (m.recorded.fetchOne α p) (Disciplined 1) :=
  disciplined_decoded hm p pagingKeys (some 1) fun rows => h.optionMapM rows.head?

theorem disciplined_fetchColumn (p : FetchParams) :
    Action.Makes (m.fetchColumn p) (m.recorded.fetchColumn p) (Disciplined 1) :=
  (Action.makes_ofExcept _).silent.disciplined_of_silent fun p =>
    disciplined_decoded hm p [] none (Decodes.nth 0).mapM

theorem disciplined_fetchValue (p : FetchParams) :
    Action.Makes (m.fetchValue p) (m.recorded.fetchValue p) (Disciplined 1) :=
  (Action.makes_ofExcept _).silent.disciplined_of_silent fun p =>
    disciplined_decoded hm p pagingKeys (some 1) fun rows => (Decodes.nth 0).optionMapM rows.head?

theorem disciplined_fetchPairs (p : FetchParams) :
    Action.Makes (m.fetchPairs p) (m.recorded.fetchPairs p) (Disciplined 1) := by
  refine (Action.makes_ofExcept _).silent.disciplined_of_silent fun p => ?_
  refine (disciplined_selectRows hm p [] none).disciplined_bind (l := 0) fun rows => ?_
  refine (Action.sends_ofExcept (Decodes.pairOf.mapM rows)).sends_bind (l := 0) fun pairs => ?_
  exact Action.sends_pure _

variable {ρ : Type} [Entity ρ]

theorem disciplined_updateRecord (now : String) (r : ρ) :
    Action.Makes (m.updateRecord now r) (m.recorded.updateRecord now r) (Disciplined 2) := by
  unfold updateRecord
  cases (Entity.data r).isEmpty with
  | true => exact (Action.sends_pure _).disciplined.mono fun _ _ h => h.mono (by decide)
  | false =>
    exact Writer.disciplined_updateMatching (w := m.writer now) hm (Entity.data r)
      (m.recordCriteria r)

theorem disciplined_deleteRow (r : ρ) :
    Action.Makes (m.deleteRow r) (m.recorded.deleteRow r) (Disciplined 2) := by
  unfold deleteRow
  cases (Entity.data r).isEmpty with
  | true => exact (Action.sends_pure _).disciplined.mono fun _ _ h => h.mono (by decide)
  | false => exact Writer.disciplined_deleteMatching (w := m.writer "") hm (m.recordCriteria r)

theorem disciplined_perform (o : Operation ρ) :
    Action.Makes (m.perform o) (m.recorded.perform o) (Disciplined 2) := by
  have hfetch : ∀ {α : Type} {a : Action σ α} {b : Action (σ × List Call) α},
      Action.Makes a b (Disciplined 1) → Action.Makes a b (Disciplined 2) :=
    fun h => h.mono fun _ _ hone => hone.mono (by decide)
  cases o with
  | fetchRows p => exact hfetch (disciplined_selectRows hm p [] none)
  | fetchAllRows p => exact hfetch (disciplined_fetchAll hm Decodes.ofRow_row p)
  | fetchAllRecords p => exact hfetch (disciplined_fetchAll hm Decodes.ofRow_record p)
  | fetchOneRow p => exact hfetch (disciplined_fetchOne hm Decodes.ofRow_row p)
  | fetchOneRecord p => exact hfetch (disciplined_fetchOne hm Decodes.ofRow_record p)
  | fetchColumn p => exact hfetch (disciplined_fetchColumn hm p)
  | fetchPairs p => exact hfetch (disciplined_fetchPairs hm p)
  | fetchValue p => exact hfetch (disciplined_fetchValue hm p)
  | insert now payload => exact Writer.disciplined_insert (w := m.writer now) hm payload
  | updateMatching now payload criteria =>
    exact Writer.disciplined_updateMatching (w := m.writer now) hm payload criteria
  | deleteMatching criteria =>
    exact Writer.disciplined_deleteMatching (w := m.writer "") hm criteria
  | updateRecord now r => exact disciplined_updateRecord hm now r
  | deleteRecord r =>
    rw [perform_deleteRecord, perform_deleteRecord]
    exact disciplined_deleteRow hm r

end Model

/-- Every operation is disciplined with two calls at most, whatever the gateway answers, provided
that it fails as gateways do. A record whose deletion fails stays as it is. -/
theorem operations_disciplined {ρ : Type} [Entity ρ] (m : Model σ)
    (hm : m.gateway.FailsAsGateway) (o : Operation ρ) (r : ρ) (s : Session σ) :
    (let result := (m.perform o).run s
      let calls := (m.recorded.perform o).callsIn s
      (m.recorded.perform o).run (s.recording []) = (result.1, result.2.recording calls) ∧
        Disciplined 2 calls result.1) ∧
    ∀ e, ((m.deleteRecord r).run s).1.1 = .error e → ((m.deleteRecord r).run s).1.2 = r := by
  refine ⟨(Model.disciplined_perform hm o).callsIn s, ?_⟩
  intro e he
  rw [Model.deleteRecord_run] at he ⊢
  have hresult : ((m.deleteRow r).run s).1 = .error e := he
  rw [hresult]
  rfl

/-- A model of users on a connection that counts one for every filter and can write nothing. -/
def Model.lockedUsers : Model Unit where
  config := { tableName := "users", primaryColumn := "id" }
  schema := ⟨"users", [.ofType "id" "int"], "id"⟩
  gateway := .ofConnection {
    dialect := .postgres
    query := fun _ _ _ => (.ok [Row.empty.set countAlias (.int 1)], ())
    execute := fun _ _ _ => (.error (.gateway "locked"), ())
    lastKey := fun _ _ => (.ok none, ()) }

theorem Model.failsAsGateway_lockedUsers : lockedUsers.gateway.FailsAsGateway where
  query sql params s e h := by cases h
  execute sql params s e h := by
    cases h
    rfl
  lastKey sequence s e h := by cases h

/-- A stored user. -/
def storedUser : Record := ⟨Row.empty.set "id" (.int 7), false⟩

theorem operations_disciplined_lockedUsers :
    Disciplined 2
        [.query ⟨"SELECT COUNT(*) AS num_of_matched_records FROM users WHERE id = $1", [.int 7]⟩
            (.ok [Row.empty.set countAlias (.int 1)]),
          .execute ⟨"DELETE FROM users WHERE id = $1", [.int 7]⟩ (.error (.gateway "locked"))]
        (.error (.gateway "locked") : Except Error WriteOutcome) ∧
      ((Model.lockedUsers.deleteRecord storedUser).run ⟨(), []⟩).1.2 = storedUser := by
  obtain ⟨⟨-, hdisciplined⟩, hrecord⟩ := operations_disciplined Model.lockedUsers
    Model.failsAsGateway_lockedUsers (.deleteRecord storedUser) storedUser ⟨(), []⟩
  exact ⟨hdisciplined, hrecord _ rfl⟩

end TableAccess
