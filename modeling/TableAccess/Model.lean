import TableAccess.Config
import TableAccess.Fetch.Compile
import TableAccess.Record
import TableAccess.Write

/-!
# Models

Everything a caller does with one table: selections in several shapes, writes by criteria, and
writes of single records by their primary key. The columns are looked up once, when the model is
made.
-/
namespace TableAccess

structure Model (σ : Type) where
  config : Config
  schema : TableSchema
  gateway : Gateway σ

namespace Model
variable {σ : Type}

/-- The table of a configuration, its columns from the catalog unless the configuration has
them. -/
def resolveSchema (config : Config) (catalog : String → Except Error (List Column)) :
    Except Error TableSchema := do
  config.validate
  let columns ←
    match config.columns with
    | some columns => .ok columns
    | none => catalog config.tableName
  TableSchema.create config.tableName columns config.primaryColumn

def create (config : Config) (catalog : String → Except Error (List Column))
    (gateway : Gateway σ) : Action σ (Model σ) := do
  let schema ← Action.ofExcept (resolveSchema config catalog)
  Action.report [.modelReady schema.name schema.primaryKey schema.columns.length]
  return ⟨config, schema, gateway⟩

def columnNames (m : Model σ) : List String := m.schema.columnNames

/-- What a caller may not decide when a single row is fetched. -/
def pagingKeys : List ParamKey := [.limit, .offset]

def selectRows (m : Model σ) (p : FetchParams) (disallowed : List ParamKey)
    (forcedLimit : Option Nat) : Action σ (List Row) := do
  let selection ← Action.ofLogged (p.select m.gateway.target disallowed m.schema.name)
  m.gateway.queryStatement (forcedLimit.elim selection selection.limit).build

def fetchRows (m : Model σ) (p : FetchParams) : Action σ (List Row) := m.selectRows p [] none

def fetchAll (α : Type) [FromRow α] (m : Model σ) (p : FetchParams) : Action σ (List α) := do
  let rows ← m.fetchRows p
  Action.ofExcept (rows.mapM FromRow.ofRow)

/-- The first row made into something, if there is one, whatever paging the caller asks for. -/
def fetchOne (α : Type) [FromRow α] (m : Model σ) (p : FetchParams) : Action σ (Option α) := do
  let rows ← m.selectRows p pagingKeys (some 1)
  Action.ofExcept (rows.head?.mapM FromRow.ofRow)

/-- The parameters with only the first columns, of which there have to be enough. -/
def leadingColumns (p : FetchParams) (needed : Nat) (operation : String) :
    Except Error FetchParams :=
  let columns := p.columns.getD []
  if columns.length < needed then
    .error (.invalid .badFetchParams
      s!"{operation} needs at least {needed} column(s) in 'cols', got {columns.length}")
  else .ok { p with columns := some (columns.take needed) }

def fetchColumn (m : Model σ) (p : FetchParams) : Action σ (List Value) := do
  let p ← Action.ofExcept (leadingColumns p 1 "fetch_col")
  let rows ← m.selectRows p [] none
  Action.ofExcept (rows.mapM (·.nth 0))

def pairOf (row : Row) : Except Error (String × Value) := do
  let key ← row.nth 0
  let value ← row.nth 1
  return (key.keyText, value)

/-- The second of the first two columns asked for by the first. A key that comes again takes the
later value and keeps its place. -/
def fetchPairs (m : Model σ) (p : FetchParams) : Action σ Row := do
  let p ← Action.ofExcept (leadingColumns p 2 "fetch_pairs")
  let rows ← m.selectRows p [] none
  let pairs ← Action.ofExcept (rows.mapM pairOf)
  return Row.ofList pairs

def fetchValue (m : Model σ) (p : FetchParams) : Action σ (Option Value) := do
  let p ← Action.ofExcept (leadingColumns p 1 "fetch_value")
  let rows ← m.selectRows p pagingKeys (some 1)
  Action.ofExcept (rows.head?.mapM (·.nth 0))

def writer (m : Model σ) (now : String) : Writer σ where
  gateway := m.gateway
  schema := m.schema
  createdColumn := m.config.createdColumn
  updatedColumn := m.config.updatedColumn
  timestamp := now

/-- Inserts a row. Both columns that may be stamped get the one time that is given. -/
def insert (m : Model σ) (now : String) (payload : Row) : Action σ WriteOutcome :=
  (m.writer now).insert payload

def updateMatching (m : Model σ) (now : String) (payload : Row) (criteria : Criteria) :
    Action σ WriteOutcome :=
  (m.writer now).updateMatching payload criteria

def deleteMatching (m : Model σ) (criteria : Criteria) : Action σ WriteOutcome :=
  (m.writer "").deleteMatching criteria

variable {ρ : Type} [Entity ρ]

def recordCriteria (m : Model σ) (r : ρ) : Criteria :=
  Criteria.empty.withValue m.schema.primaryKey
    ((Entity.primaryValue? r m.schema.primaryKey).getD .null)

/-- Writes the data of a record to its row. A record without data matches nothing. -/
def updateRecord (m : Model σ) (now : String) (r : ρ) : Action σ WriteOutcome :=
  if (Entity.data r).isEmpty then return .noMatchingRows
  else m.updateMatching now (Entity.data r) (m.recordCriteria r)

def afterDelete (r : ρ) : Except Error WriteOutcome → ρ
  | .ok (.executed n) => if 0 < n then Entity.markNew r else r
  | _ => r

/-- Deletes the row of a record, and tells the record as it is afterwards. A record without data
matches nothing. -/
def deleteRecord (m : Model σ) (r : ρ) : StateM (Session σ) (Except Error WriteOutcome × ρ) := do
  if (Entity.data r).isEmpty then return (.ok .noMatchingRows, r)
  else
    let outcome ← (m.deleteMatching (m.recordCriteria r)).run
    return (outcome, afterDelete r outcome)

end Model

end TableAccess
