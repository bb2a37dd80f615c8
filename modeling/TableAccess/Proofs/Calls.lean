import TableAccess.Write

/-!
# Calls of a gateway

A recording gateway passes every call on to another gateway and keeps it with its answer. An
action on the recording gateway does what it does on the other one, and `Makes` says of it which
calls it makes until which result; `Makes.bind` puts the calls of two actions together.
-/
namespace TableAccess

/-- A call of a gateway with the answer to it. -/
inductive Call where
  | query (statement : Sql.Statement) (answer : Except Error (List Row))
  | execute (statement : Sql.Statement) (answer : Except Error Nat)
  | lastKey (sequence : Option String) (answer : Except Error (Option Value))

variable {σ α β : Type}

/-- A session with the calls made so far. -/
def Session.recording (s : Session σ) (calls : List Call) : Session (σ × List Call) :=
  ⟨(s.state, calls), s.events⟩

namespace Action

/-- An action that counts as one call. -/
def recorded (a : Action σ α) (call : Except Error α → Call) : Action (σ × List Call) α :=
  ExceptT.mk fun s =>
    let (r, s') := a.run ⟨s.state.1, s.events⟩
    (r, s'.recording (s.state.2 ++ [call r]))

end Action

/-- The gateway that keeps the calls of another one. -/
def Gateway.recorded (g : Gateway σ) : Gateway (σ × List Call) where
  dialect := g.dialect
  quote := g.quote
  query sql params := (g.query sql params).recorded (.query ⟨sql, params⟩)
  execute sql params := (g.execute sql params).recorded (.execute ⟨sql, params⟩)
  lastKey sequence := (g.lastKey sequence).recorded (.lastKey sequence)

/-- A writer whose calls are kept. -/
def Writer.recorded (w : Writer σ) : Writer (σ × List Call) where
  gateway := w.gateway.recorded
  schema := w.schema
  createdColumn := w.createdColumn
  updatedColumn := w.updatedColumn
  timestamp := w.timestamp

namespace Action

theorem run_bind (a : Action σ α) (f : α → Action σ β) (s : Session σ) :
    (a >>= f).run s =
      match a.run s with
      | (.ok x, s') => (f x).run s'
      | (.error e, s') => (.error e, s') := by
  change (ExceptT.bindCont f (a.run s).1) (a.run s).2 = _
  rcases a.run s with ⟨r, s'⟩
  cases r <;> rfl

/-- The second action does what the first one does, and the calls that it records meet a
condition together with the result. -/
def Makes (a : Action σ α) (b : Action (σ × List Call) α)
    (P : List Call → Except Error α → Prop) : Prop :=
  ∀ s calls, ∃ more,
    b.run (s.recording calls) = ((a.run s).1, (a.run s).2.recording (calls ++ more)) ∧
      P more (a.run s).1

/-- The calls that an action records in a session. -/
def callsIn (b : Action (σ × List Call) α) (s : Session σ) : List Call :=
  (b.run (s.recording [])).2.state.2

theorem Makes.callsIn {a : Action σ α} {b : Action (σ × List Call) α}
    {P : List Call → Except Error α → Prop} (h : Makes a b P) (s : Session σ) :
    b.run (s.recording []) = ((a.run s).1, (a.run s).2.recording (b.callsIn s)) ∧
      P (b.callsIn s) (a.run s).1 := by
  obtain ⟨more, hrun, hmore⟩ := h s []
  have hcalls : b.callsIn s = more := by
    rw [Action.callsIn, hrun]
    rfl
  rw [hcalls]
  exact ⟨hrun, hmore⟩

theorem makes_recorded (a : Action σ α) (call : Except Error α → Call) :
    Makes a (a.recorded call) fun cs r => cs = [call r] := by
  intro s calls
  exact ⟨[call (a.run s).1], rfl, rfl⟩

theorem makes_pure (x : α) :
    Makes (pure x : Action σ α) (pure x) fun cs r => cs = [] ∧ r = .ok x := by
  intro s calls
  refine ⟨[], ?_, rfl, rfl⟩
  rw [List.append_nil]
  rfl

theorem makes_throw (e : Error) :
    Makes (throw e : Action σ α) (throw e) fun cs r => cs = [] ∧ r = .error e := by
  intro s calls
  refine ⟨[], ?_, rfl, rfl⟩
  rw [List.append_nil]
  rfl

theorem makes_ofExcept (r : Except Error α) :
    Makes (ofExcept r : Action σ α) (ofExcept r) fun cs r' => cs = [] ∧ r' = r := by
  intro s calls
  refine ⟨[], ?_, rfl, rfl⟩
  rw [List.append_nil]
  rfl

theorem makes_report (events : List Event) :
    Makes (report events : Action σ Unit) (report events) fun cs r => cs = [] ∧ r = .ok () := by
  intro s calls
  refine ⟨[], ?_, rfl, rfl⟩
  rw [List.append_nil]
  rfl

theorem makes_ofLogged (c : Logged α) :
    Makes (ofLogged c : Action σ α) (ofLogged c) fun cs _ => cs = [] := by
  intro s calls
  refine ⟨[], ?_, rfl⟩
  rw [List.append_nil]
  rfl

theorem Makes.mono {a : Action σ α} {b : Action (σ × List Call) α}
    {P Q : List Call → Except Error α → Prop} (h : Makes a b P)
    (hPQ : ∀ cs r, P cs r → Q cs r) : Makes a b Q := by
  intro s calls
  obtain ⟨more, hrun, hmore⟩ := h s calls
  exact ⟨more, hrun, hPQ more _ hmore⟩

theorem Makes.silent {a : Action σ α} {b : Action (σ × List Call) α}
    {R : Except Error α → Prop} (h : Makes a b fun cs r => cs = [] ∧ R r) :
    Makes a b fun cs _ => cs = [] :=
  h.mono fun _ _ hsilent => hsilent.1

/-- What is known of every result is known together with the calls. -/
theorem Makes.and_result {a : Action σ α} {b : Action (σ × List Call) α}
    {P : List Call → Except Error α → Prop} {R : Except Error α → Prop} (h : Makes a b P)
    (hR : ∀ s, R (a.run s).1) : Makes a b fun cs r => P cs r ∧ R r := by
  intro s calls
  obtain ⟨more, hrun, hmore⟩ := h s calls
  exact ⟨more, hrun, hmore, hR s⟩

/-- Two actions one after the other make the calls of the first and then, unless that has failed,
those of the second. -/
theorem Makes.bind {a : Action σ α} {b : Action (σ × List Call) α} {f : α → Action σ β}
    {g : α → Action (σ × List Call) β} {P : List Call → Except Error α → Prop}
    {Q : α → List Call → Except Error β → Prop} (h : Makes a b P)
    (hf : ∀ x, Makes (f x) (g x) (Q x)) :
    Makes (a >>= f) (b >>= g) fun cs r =>
      (∃ e, P cs (.error e) ∧ r = .error e) ∨
        ∃ x cs₁ cs₂, P cs₁ (.ok x) ∧ Q x cs₂ r ∧ cs = cs₁ ++ cs₂ := by
  intro s calls
  obtain ⟨more, hrun, hmore⟩ := h s calls
  rw [run_bind, run_bind, hrun]
  generalize a.run s = p at hmore
  obtain ⟨r, s'⟩ := p
  cases r with
  | error e => exact ⟨more, rfl, .inl ⟨e, hmore, rfl⟩⟩
  | ok x =>
    obtain ⟨rest, hrest, hQ⟩ := hf x s' (calls ++ more)
    refine ⟨more ++ rest, ?_, .inr ⟨x, more, rest, hmore, hQ, rfl⟩⟩
    simpa [List.append_assoc] using hrest

/-- An action that makes no call and does not fail adds nothing to the next one. -/
theorem Makes.bind_silent {a : Action σ α} {b : Action (σ × List Call) α} {f : α → Action σ β}
    {g : α → Action (σ × List Call) β} {x : α} {Q : List Call → Except Error β → Prop}
    (h : Makes a b fun cs r => cs = [] ∧ r = .ok x) (hf : Makes (f x) (g x) Q) :
    Makes (a >>= f) (b >>= g) Q := by
  intro s calls
  obtain ⟨more, hrun, rfl, hr⟩ := h s calls
  rw [run_bind, run_bind, hrun]
  generalize a.run s = p at hr
  obtain ⟨r, s'⟩ := p
  obtain rfl : r = .ok x := hr
  simpa using hf s' calls

@[simp] theorem ofExcept_ok_bind (x : α) (f : α → Action σ β) : ofExcept (.ok x) >>= f = f x :=
  rfl

@[simp] theorem ofExcept_error_bind (e : Error) (f : α → Action σ β) :
    ofExcept (.error e) >>= f = throw e := rfl

end Action

end TableAccess
