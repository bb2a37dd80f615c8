import TableAccess.Event
import TableAccess.Row
import TableAccess.Sql.Statement

/-!
# Gateways

A connection is a state machine that answers queries, commands and questions for generated
keys. The library works on a session: the state of the connection and the events reported so
far. A gateway is what the library calls in a session; the plain gateway of a connection reports
nothing.
-/
namespace TableAccess

/-- The state of a connection and what was reported, oldest first. -/
structure Session (σ : Type) where
  state : σ
  events : List Event := []

/-- A computation in a session. What it did to the session stays if it fails. -/
abbrev Action (σ : Type) := ExceptT Error (StateM (Session σ))

def Action.ofLogged {σ α : Type} (c : Logged α) : Action σ α :=
  ExceptT.mk fun s =>
    let (r, events) := c.run s.events
    (r, { s with events := events })

def Action.ofExcept {σ α : Type} (r : Except Error α) : Action σ α := ExceptT.mk (pure r)

def Action.report {σ : Type} (events : List Event) : Action σ Unit :=
  modify fun s => { s with events := s.events ++ events }

/-- A step of a connection, which sees and changes the connection's state only. -/
def Action.ofStep {σ α : Type} (f : σ → Except Error α × σ) : Action σ α :=
  ExceptT.mk fun s =>
    let (r, state) := f s.state
    (r, { s with state := state })

/-- A connection to a database as a state machine. -/
structure Connection (σ : Type) where
  dialect : Dialect
  quote : String → String := dialect.quoteLiteral
  query : String → List Value → σ → Except Error (List Row) × σ
  execute : String → List Value → σ → Except Error Nat × σ
  lastKey : Option String → σ → Except Error (Option Value) × σ

structure Gateway (σ : Type) where
  dialect : Dialect
  quote : String → String
  query : String → List Value → Action σ (List Row)
  execute : String → List Value → Action σ Nat
  lastKey : Option String → Action σ (Option Value)

namespace Gateway

/-- The gateway that sends statements to a connection and reports nothing. -/
def ofConnection {σ : Type} (c : Connection σ) : Gateway σ where
  dialect := c.dialect
  quote := c.quote
  query sql params := .ofStep (c.query sql params)
  execute sql params := .ofStep (c.execute sql params)
  lastKey sequence := .ofStep (c.lastKey sequence)

variable {σ : Type}

def target (g : Gateway σ) : Target := ⟨g.dialect, g.quote⟩

def queryFirst (g : Gateway σ) (sql : String) (params : List Value) : Action σ (Option Row) := do
  return (← g.query sql params).head?

def queryStatement (g : Gateway σ) (s : Sql.Statement) : Action σ (List Row) :=
  g.query s.sql s.params

def executeStatement (g : Gateway σ) (s : Sql.Statement) : Action σ Nat :=
  g.execute s.sql s.params

end Gateway

end TableAccess
