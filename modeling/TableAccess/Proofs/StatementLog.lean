import TableAccess.Proofs.Discipline
import TableAccess.Proofs.Transparency

/-!
# The log of statements

Through a traced gateway every statement is reported before it is sent and once more when it is
answered, whatever the gateway behind it reports in between, and the reports of a sequence of calls
follow one another as the calls do. A question for a generated key is reported only if it is
answered: a failure of it leaves the log as it was, which is what sets it apart from the failure of
a statement.
-/
namespace TableAccess

variable {σ α : Type}

/-- The session behind what was reported earlier. -/
def Session.after (s : Session σ) (events : List Event) : Session σ :=
  ⟨s.state, events ++ s.events⟩

namespace Action

/-- What was reported earlier stays, and the action takes no notice of it. -/
def Appends (a : Action σ α) : Prop :=
  ∀ s, a.run s = ((a.run ⟨s.state, []⟩).1, (a.run ⟨s.state, []⟩).2.after s.events)

theorem appends_ofStep (f : σ → Except Error α × σ) : Appends (ofStep f) := by
  intro s
  change ((f s.state).1, (⟨(f s.state).2, s.events⟩ : Session σ)) =
    ((f s.state).1, ⟨(f s.state).2, s.events ++ []⟩)
  rw [List.append_nil]

end Action

namespace Tracing

/-- What is reported of a statement before it is sent. -/
def sent (t : Tracing) (statement : Sql.Statement) : Event :=
  .executing t.level (StatementKind.ofSql statement.sql) statement.params.length
    (Text.shown t.maxLength statement.sql)

/-- What is reported of a statement that was answered, with a number of rows or with an error. -/
def answered (t : Tracing) (statement : Sql.Statement) : Except Error Nat → Event
  | .ok n => .finished t.level (StatementKind.ofSql statement.sql) n
  | .error e =>
    .failed (StatementKind.ofSql statement.sql) e (Text.shown t.maxLength statement.sql)

/-- What is reported before a call. -/
def before (t : Tracing) : Call → List Event
  | .query statement _ => [t.sent statement]
  | .execute statement _ => [t.sent statement]
  | .lastKey _ _ => []

/-- What is reported behind a call. -/
def behind (t : Tracing) : Call → List Event
  | .query statement answer => [t.answered statement (answer.map List.length)]
  | .execute statement answer => [t.answered statement answer]
  | .lastKey sequence (.ok key) => [.generatedKey t.level sequence key]
  | .lastKey _ (.error _) => []

/-- The reports around what a gateway reports of a call itself. -/
def around (t : Tracing) (c : Call) (events : List Event) : List Event :=
  t.before c ++ events ++ t.behind c

end Tracing

/-- What can be asked of a gateway. -/
inductive Request where
  | query (statement : Sql.Statement)
  | execute (statement : Sql.Statement)
  | lastKey (sequence : Option String)
  deriving DecidableEq

def Call.request : Call → Request
  | .query statement _ => .query statement
  | .execute statement _ => .execute statement
  | .lastKey sequence _ => .lastKey sequence

/-- The statement that a request sends. -/
def Request.statement? : Request → Option Sql.Statement
  | .query statement => some statement
  | .execute statement => some statement
  | .lastKey _ => none

/-- What is reported of a request before it goes on to the gateway behind. -/
def Tracing.announced (t : Tracing) (r : Request) : List Event := r.statement?.toList.map t.sent

theorem Tracing.before_eq_announced (t : Tracing) (c : Call) :
    t.before c = t.announced c.request := by
  cases c <;> rfl

namespace Gateway

/-- Asks a gateway for something, which makes a call of it with the answer. -/
def ask (g : Gateway σ) : Request → StateM (Session σ) Call
  | .query statement => Call.query statement <$> (g.queryStatement statement).run
  | .execute statement => Call.execute statement <$> (g.executeStatement statement).run
  | .lastKey sequence => Call.lastKey sequence <$> (g.lastKey sequence).run

/-- Asks for one thing after another, whether or not the earlier ones failed. -/
def askAll (g : Gateway σ) : List Request → StateM (Session σ) (List Call)
  | [] => return []
  | r :: rs => do
    let call ← g.ask r
    let calls ← g.askAll rs
    return call :: calls

/-- The calls that a gateway makes of requests, each with what it reports of the call itself, and
the state in which it is left. -/
def transcript (g : Gateway σ) : List Request → σ → List (Call × List Event) × σ
  | [], state => ([], state)
  | r :: rs, state =>
    let (call, s) := g.ask r ⟨state, []⟩
    let (calls, last) := g.transcript rs s.state
    ((call, s.events) :: calls, last)

/-- A gateway that takes no notice of what was reported. -/
structure Appends (g : Gateway σ) : Prop where
  query (sql : String) (params : List Value) : (g.query sql params).Appends
  execute (sql : String) (params : List Value) : (g.execute sql params).Appends
  lastKey (sequence : Option String) : (g.lastKey sequence).Appends

theorem appends_ofConnection (c : Connection σ) : (ofConnection c).Appends where
  query _ _ := Action.appends_ofStep _
  execute _ _ := Action.appends_ofStep _
  lastKey _ := Action.appends_ofStep _

section Runs
variable {g : Gateway σ} {a : Action σ α}

/-- What is sent runs between the two reports. -/
theorem traceStatement_run_eq (a : Action σ α) (t : Tracing) (statement : Sql.Statement)
    (rows : α → Nat) (s : Session σ) :
    (traceStatement t statement.sql statement.params a rows).run s =
      let run := a.run ⟨s.state, s.events ++ [t.sent statement]⟩
      (run.1, ⟨run.2.state, run.2.events ++ [t.answered statement (run.1.map rows)]⟩) := by
  simp only [traceStatement, Tracing.sent, Action.run_bind, Action.report_run, Action.lift_run]
  rcases a.run _ with ⟨r, s'⟩
  cases r <;> rfl

theorem appends_traceStatement (h : a.Appends) (t : Tracing) (statement : Sql.Statement)
    (rows : α → Nat) : (traceStatement t statement.sql statement.params a rows).Appends := by
  intro s
  rw [traceStatement_run_eq, traceStatement_run_eq, h ⟨s.state, s.events ++ [t.sent statement]⟩,
    h ⟨s.state, [] ++ [t.sent statement]⟩]
  simp [Session.after]

theorem traced_lastKey_run_eq (g : Gateway σ) (t : Tracing) (sequence : Option String)
    (s : Session σ) :
    ((g.traced t).lastKey sequence).run s =
      let run := (g.lastKey sequence).run s
      (run.1, ⟨run.2.state, run.2.events ++ t.behind (.lastKey sequence run.1)⟩) := by
  simp only [traced, Action.run_bind]
  rcases (g.lastKey sequence).run s with ⟨answer, s'⟩
  cases answer with
  | ok key => rfl
  | error e => simp [Tracing.behind]

/-- A request goes on between its reports, whatever the gateway behind makes of the earlier ones. -/
theorem ask_traced_eq (g : Gateway σ) (t : Tracing) (r : Request) (s : Session σ) :
    (g.traced t).ask r s =
      let run := g.ask r ⟨s.state, s.events ++ t.announced r⟩
      (run.1, ⟨run.2.state, run.2.events ++ t.behind run.1⟩) := by
  cases r with
  | query statement =>
    have hrun := traceStatement_run_eq (g.query statement.sql statement.params) t statement
      List.length s
    exact congrArg (fun p => (Call.query statement p.1, p.2)) hrun
  | execute statement =>
    have hrun := traceStatement_run_eq (g.execute statement.sql statement.params) t statement id s
    rw [Except.map_id] at hrun
    exact congrArg (fun p => (Call.execute statement p.1, p.2)) hrun
  | lastKey sequence =>
    have hrun := traced_lastKey_run_eq g t sequence s
    have hs : (⟨s.state, s.events ++ t.announced (.lastKey sequence)⟩ : Session σ) = s := by
      simp [Tracing.announced, Request.statement?]
    rw [hs]
    exact congrArg (fun p => (Call.lastKey sequence p.1, p.2)) hrun

theorem ask_eq_after (h : g.Appends) (r : Request) (s : Session σ) :
    g.ask r s = ((g.ask r ⟨s.state, []⟩).1, (g.ask r ⟨s.state, []⟩).2.after s.events) := by
  cases r with
  | query statement =>
    exact congrArg (fun p => (Call.query statement p.1, p.2)) (h.query _ _ s)
  | execute statement =>
    exact congrArg (fun p => (Call.execute statement p.1, p.2)) (h.execute _ _ s)
  | lastKey sequence =>
    exact congrArg (fun p => (Call.lastKey sequence p.1, p.2)) (h.lastKey sequence s)

/-- A traced gateway takes no notice of reports either, so that it can be traced in its turn. -/
theorem Appends.traced (h : g.Appends) (t : Tracing) : (g.traced t).Appends where
  query sql params := appends_traceStatement (h.query sql params) t ⟨sql, params⟩ List.length
  execute sql params := appends_traceStatement (h.execute sql params) t ⟨sql, params⟩ id
  lastKey sequence s := by
    rw [traced_lastKey_run_eq, traced_lastKey_run_eq, h.lastKey sequence s]
    simp [Session.after]

theorem request_ask (g : Gateway σ) (r : Request) (s : Session σ) :
    (g.ask r s).1.request = r := by
  cases r <;> rfl

/-- A call through a traced gateway is the call of the gateway behind it, with reports around what
that one reports. -/
theorem ask_traced (h : g.Appends) (t : Tracing) (r : Request) (s : Session σ) :
    (g.traced t).ask r s =
      ((g.ask r ⟨s.state, []⟩).1,
        ⟨(g.ask r ⟨s.state, []⟩).2.state,
          s.events ++ t.around (g.ask r ⟨s.state, []⟩).1 (g.ask r ⟨s.state, []⟩).2.events⟩) := by
  rw [ask_traced_eq, ask_eq_after h r ⟨s.state, s.events ++ t.announced r⟩]
  simp [Session.after, Tracing.around, Tracing.before_eq_announced, request_ask]

theorem askAll_cons (g : Gateway σ) (r : Request) (rs : List Request) (s : Session σ) :
    g.askAll (r :: rs) s =
      ((g.ask r s).1 :: (g.askAll rs (g.ask r s).2).1, (g.askAll rs (g.ask r s).2).2) := rfl

theorem transcript_cons (g : Gateway σ) (r : Request) (rs : List Request) (state : σ) :
    g.transcript (r :: rs) state =
      (((g.ask r ⟨state, []⟩).1, (g.ask r ⟨state, []⟩).2.events) ::
          (g.transcript rs (g.ask r ⟨state, []⟩).2.state).1,
        (g.transcript rs (g.ask r ⟨state, []⟩).2.state).2) := rfl

/-- The reports of calls follow one another as the calls do. -/
theorem askAll_eq_transcript (h : g.Appends) (rs : List Request) (s : Session σ) :
    g.askAll rs s = ((g.transcript rs s.state).1.map (·.1),
      ⟨(g.transcript rs s.state).2, s.events ++ (g.transcript rs s.state).1.flatMap (·.2)⟩) := by
  induction rs generalizing s with
  | nil =>
    simp only [transcript, List.flatMap_nil, List.append_nil]
    rfl
  | cons r rs ih =>
    rw [askAll_cons, ask_eq_after h r s, ih, transcript_cons]
    simp [Session.after]

theorem transcript_traced (h : g.Appends) (t : Tracing) (rs : List Request) (state : σ) :
    (g.traced t).transcript rs state =
      ((g.transcript rs state).1.map fun p => (p.1, t.around p.1 p.2),
        (g.transcript rs state).2) := by
  induction rs generalizing state with
  | nil => rfl
  | cons r rs ih =>
    rw [transcript_cons, transcript_cons, ask_traced h, ih]
    rfl

/-- Every request makes a call. -/
theorem requests_transcript (g : Gateway σ) (rs : List Request) (state : σ) :
    (g.transcript rs state).1.map (·.1.request) = rs := by
  induction rs generalizing state with
  | nil => rfl
  | cons r rs ih => rw [transcript_cons, List.map_cons, request_ask, ih]

end Runs

end Gateway

namespace Event

/-- The error that an event carries. -/
def error? : Event → Option Error
  | .failed _ error _ => some error
  | _ => none

/-- An event on the channel for statements, with its level, its message and its fields. -/
structure Reads (e : Event) (level : Level) (message : String) (fields : List (String × Field)) :
    Prop where
  target_eq : e.target = "tablegate.sql"
  level_eq : e.level = level
  message_eq : e.message = message
  fields_eq : e.fields = fields

/-- An error is reported as a warning and with its message. -/
theorem level_of_error? {e : Event} {error : Error} (h : e.error? = some error) :
    e.level = .warn ∧ ("error", .text error.message) ∈ e.fields := by
  cases e with
  | failed kind error' sql =>
    cases h
    exact ⟨rfl, by simp [fields]⟩
  | _ => cases h

end Event

/-- A call that sends a statement. -/
def Call.isStatement : Call → Bool
  | .query _ _ | .execute _ _ => true
  | .lastKey _ _ => false

namespace Tracing
variable {t : Tracing}

/-- What is reported of a statement: one event before it is sent, and one when it is answered, with
the number of rows or, whatever the level, as a warning with the error. -/
structure ReportsStatement (t : Tracing) (statement : Sql.Statement) (outcome : Except Error Nat)
    (sent answered : Event) : Prop where
  sent : sent.Reads t.level "executing statement"
    [("query_type", .text (StatementKind.ofSql statement.sql).name),
      ("param_count", .number statement.params.length),
      ("sql", .text (Text.shown t.maxLength statement.sql))]
  finished : ∀ n, outcome = .ok n → answered.Reads t.level "statement finished"
    [("query_type", .text (StatementKind.ofSql statement.sql).name), ("rows", .number n)]
  failed : ∀ e, outcome = .error e → answered.Reads .warn "statement failed"
    [("query_type", .text (StatementKind.ofSql statement.sql).name), ("error", .text e.message),
      ("sql", .text (Text.shown t.maxLength statement.sql))]

/-- What is reported before and behind a call. -/
inductive Reports (t : Tracing) : Call → List Event → List Event → Prop
  | query {statement : Sql.Statement} {answer : Except Error (List Row)} {sent answered : Event}
      (h : t.ReportsStatement statement (answer.map List.length) sent answered) :
      Reports t (.query statement answer) [sent] [answered]
  | execute {statement : Sql.Statement} {answer : Except Error Nat} {sent answered : Event}
      (h : t.ReportsStatement statement answer sent answered) :
      Reports t (.execute statement answer) [sent] [answered]
  | key {sequence : Option String} {key : Option Value} {answered : Event}
      (h : answered.Reads t.level "read generated key"
        [("sequence", .text (sequence.getD "-")), ("id", .text (Value.diagnosticOption key))]) :
      Reports t (.lastKey sequence (.ok key)) [] [answered]
  | failedKey {sequence : Option String} {error : Error} :
      Reports t (.lastKey sequence (.error error)) [] []

theorem reportsStatement (t : Tracing) (statement : Sql.Statement) (outcome : Except Error Nat) :
    t.ReportsStatement statement outcome (t.sent statement) (t.answered statement outcome) where
  sent := ⟨rfl, rfl, rfl, rfl⟩
  finished n h := by
    subst h
    exact ⟨rfl, rfl, rfl, rfl⟩
  failed e h := by
    subst h
    exact ⟨rfl, rfl, rfl, rfl⟩

theorem reports (t : Tracing) (c : Call) : t.Reports c (t.before c) (t.behind c) := by
  cases c with
  | query statement answer => exact .query (t.reportsStatement statement _)
  | execute statement answer => exact .execute (t.reportsStatement statement answer)
  | lastKey sequence answer =>
    cases answer with
    | ok key => exact .key ⟨rfl, rfl, rfl, rfl⟩
    | error e => exact .failedKey

/-- The errors in the reports of a call: that of a statement that fails. -/
theorem errors_reported (t : Tracing) (c : Call) :
    (t.before c ++ t.behind c).filterMap Event.error? =
      if c.isStatement then c.failure?.toList else [] := by
  cases c with
  | query statement answer => cases answer <;> rfl
  | execute statement answer => cases answer <;> rfl
  | lastKey sequence answer => cases answer <;> rfl

end Tracing

namespace Gateway

/-- The log of any sequence of calls through a traced gateway. The calls, their answers and what the
gateway behind it does are those without tracing, and around what that gateway reports of a call
itself there are two reports of a statement and one of a key. Each failed statement leaves one
warning with its error, and a failed question for a key leaves nothing. -/
theorem statements_logged (g : Gateway σ) (h : g.Appends) (t : Tracing) :
    (∀ (rs : List Request) (s : Session σ),
      let calls := (g.transcript rs s.state).1
      let last := (g.transcript rs s.state).2
      calls.map (·.1.request) = rs ∧
        g.askAll rs s = (calls.map (·.1), ⟨last, s.events ++ calls.flatMap (·.2)⟩) ∧
        (g.traced t).askAll rs s = (calls.map (·.1),
          ⟨last, s.events ++ calls.flatMap fun p => t.before p.1 ++ p.2 ++ t.behind p.1⟩)) ∧
    (∀ c : Call, t.Reports c (t.before c) (t.behind c) ∧
      (t.before c ++ t.behind c).filterMap Event.error? =
        if c.isStatement then c.failure?.toList else []) ∧
    ∀ (e : Event) (error : Error), e.error? = some error →
      e.level = .warn ∧ ("error", .text error.message) ∈ e.fields := by
  refine ⟨fun rs s => ⟨requests_transcript g rs s.state, askAll_eq_transcript h rs s, ?_⟩,
    fun c => ⟨t.reports c, t.errors_reported c⟩, fun _ _ => Event.level_of_error?⟩
  rw [askAll_eq_transcript (h.traced t), transcript_traced h, List.map_map, List.flatMap_map]
  rfl

/-- A connection that answers its first two calls only. -/
def flaky : Connection Nat where
  dialect := .sqlite
  query _ _ n := (if n < 2 then .ok [Row.empty, Row.empty] else .error (.gateway "gone"), n + 1)
  execute _ _ n := (if n < 2 then .ok 3 else .error (.gateway "gone"), n + 1)
  lastKey _ n := (if n < 2 then .ok (some (.int 7)) else .error (.gateway "gone"), n + 1)

/-- A gateway that is traced twice, at two levels: a selection, a key, a statement that fails and a
key that fails. -/
theorem statements_logged_twice :
    let inner := (ofConnection flaky).traced ⟨.info, none⟩
    let rs : List Request := [.query ⟨"SELECT 1", []⟩, .lastKey none,
      .execute ⟨"DELETE FROM t WHERE id = ?", [.int 1]⟩, .lastKey (some "s")]
    inner.Appends ∧
      ((inner.traced ⟨.error, some 6⟩).askAll rs ⟨0, []⟩).2.events =
        [.executing .error .select 0 "SELECT...", .executing .info .select 0 "SELECT 1",
          .finished .info .select 2, .finished .error .select 2,
          .generatedKey .info none (some (.int 7)), .generatedKey .error none (some (.int 7)),
          .executing .error .delete 1 "DELETE...",
          .executing .info .delete 1 "DELETE FROM t WHERE id = ?",
          .failed .delete (.gateway "gone") "DELETE FROM t WHERE id = ?",
          .failed .delete (.gateway "gone") "DELETE..."] := by
  intro inner rs
  have hinner : inner.Appends := (appends_ofConnection flaky).traced _
  obtain ⟨-, -, hrun⟩ := (statements_logged inner hinner ⟨.error, some 6⟩).1 rs ⟨0, []⟩
  refine ⟨hinner, ?_⟩
  rw [hrun]
  decide +kernel

/-- A question for a key that fails leaves no report, though a failure is to be reported as a
warning whatever was asked. -/
theorem failed_key_unreported :
    ¬∀ (c : Connection Nat) (t : Tracing) (r : Request) (n : Nat),
      let run := ((ofConnection c).traced t).ask r ⟨n, []⟩
      run.2.events.filterMap Event.error? = run.1.failure?.toList := by
  intro h
  have hkey := h flaky {} (.lastKey none) 2
  have hevents : (((ofConnection flaky).traced {}).ask (.lastKey none) ⟨2, []⟩).2.events = [] := rfl
  have hfailure : (((ofConnection flaky).traced {}).ask (.lastKey none) ⟨2, []⟩).1.failure? =
      some (.gateway "gone") := rfl
  simp only [hevents, hfailure] at hkey
  cases hkey

end Gateway

end TableAccess
