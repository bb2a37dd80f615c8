import TableAccess.Error
import TableAccess.Fetch.Params
import TableAccess.StatementKind

/-!
# Log events

What the library reports while it works, each event with its level, the channel it goes to, its
message and its fields.
-/
namespace TableAccess

inductive Level where
  | error
  | warn
  | info
  | debug
  | trace
  deriving DecidableEq

namespace Level

def name : Level → String
  | .error => "ERROR"
  | .warn => "WARN"
  | .info => "INFO"
  | .debug => "DEBUG"
  | .trace => "TRACE"

def ofName? (s : String) : Option Level :=
  [error, warn, info, debug, trace].find? (·.name == s)

end Level

/-- Something worth reporting. -/
inductive Event where
  | ignoredParam (key : ParamKey)
  | unknownColumn (table column : String)
  | emptyAutoincrement (table column : String)
  | updateMatchedNothing (table : String)
  | deleteWithoutCriteria (table : String)
  | deleteMatchedNothing (table : String)
  | modelReady (table primaryKey : String) (columns : Nat)
  | executing (level : Level) (kind : StatementKind) (params : Nat) (sql : String)
  | finished (level : Level) (kind : StatementKind) (rows : Nat)
  | failed (kind : StatementKind) (error : Error) (sql : String)
  | generatedKey (level : Level) (sequence : Option String) (key : Option Value)
  deriving DecidableEq

namespace Event

inductive Field where
  | text (s : String)
  | number (n : Nat)

def level : Event → Level
  | .ignoredParam _ => .trace
  | .executing level _ _ _ => level
  | .finished level _ _ => level
  | .failed _ _ _ => .warn
  | .generatedKey level _ _ => level
  | _ => .debug

/-- The channel of an event: statements sent to a connection have one of their own. -/
def target : Event → String
  | .executing _ _ _ _ | .finished _ _ _ | .failed _ _ _ | .generatedKey _ _ _ => "tablegate.sql"
  | _ => "tablegate"

def message : Event → String
  | .ignoredParam _ => "ignoring disallowed fetch param"
  | .unknownColumn _ _ => "dropping payload column not in table"
  | .emptyAutoincrement _ _ => "removing empty autoincrement column"
  | .updateMatchedNothing _ => "update matched no rows"
  | .deleteWithoutCriteria _ => "delete without criteria skipped"
  | .deleteMatchedNothing _ => "delete matched no rows"
  | .modelReady _ _ _ => "model ready"
  | .executing _ _ _ _ => "executing statement"
  | .finished _ _ _ => "statement finished"
  | .failed _ _ _ => "statement failed"
  | .generatedKey _ _ _ => "read generated key"

def fields : Event → List (String × Field)
  | .ignoredParam key => [("key", .text key.name)]
  | .unknownColumn table column => [("table", .text table), ("column", .text column)]
  | .emptyAutoincrement table column => [("table", .text table), ("column", .text column)]
  | .updateMatchedNothing table => [("table", .text table)]
  | .deleteWithoutCriteria table => [("table", .text table)]
  | .deleteMatchedNothing table => [("table", .text table)]
  | .modelReady table primaryKey columns =>
    [("table", .text table), ("primary_key", .text primaryKey), ("columns", .number columns)]
  | .executing _ kind params sql =>
    [("query_type", .text kind.name), ("param_count", .number params), ("sql", .text sql)]
  | .finished _ kind rows => [("query_type", .text kind.name), ("rows", .number rows)]
  | .failed kind error sql =>
    [("query_type", .text kind.name), ("error", .text error.message), ("sql", .text sql)]
  | .generatedKey _ sequence key =>
    [("sequence", .text (sequence.getD "-")), ("id", .text (Value.diagnosticOption key))]

end Event

/-- A computation that reports events and may fail; what was reported before a failure stays. -/
abbrev Logged := ExceptT Error (StateM (List Event))

def report (e : Event) : Logged Unit := modify (· ++ [e])

end TableAccess
