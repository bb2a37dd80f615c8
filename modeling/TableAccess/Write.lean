import TableAccess.Condition.Lowering
import TableAccess.Criteria
import TableAccess.Gateway.Basic
import TableAccess.Schema.Table
import TableAccess.Sql.Delete
import TableAccess.Sql.Insert
import TableAccess.Sql.Select
import TableAccess.Sql.Update

/-!
# Writing to a table

A payload is stamped with the time and reduced to the columns of the table before it is written.
Rows are updated or deleted only after a count with the same filter found some; the two
statements are sent one after the other and not in a transaction.
-/
namespace TableAccess

def countAlias : String := "num_of_matched_records"

def timestampFormat : String := "%Y-%m-%d %H:%M:%S"

/-- What a write did. -/
inductive WriteOutcome where
  | inserted (row : Row)
  | executed (affected : Nat)
  | noMatchingRows
  deriving DecidableEq

namespace WriteOutcome

def isNoMatchingRows : WriteOutcome → Bool
  | .noMatchingRows => true
  | _ => false

def affected? : WriteOutcome → Option Nat
  | .executed n => some n
  | _ => none

def inserted? : WriteOutcome → Option Row
  | .inserted row => some row
  | _ => none

end WriteOutcome

/-- The count in the first row of a result. Connections answer with an integer, a whole number
or the text of one; no row and null count as zero. -/
def readCount (rows : List Row) (label : String) : Except Error Nat :=
  match rows with
  | [] => .ok 0
  | row :: _ =>
    match row.get? label with
    | none => .error (.decode label "count column missing from result row")
    | some .null => .ok 0
    | some v =>
      match v.asInt64? with
      | some i =>
        if 0 ≤ i.toInt then .ok i.toInt.toNat
        else .error (.decode label s!"not a row count: {v.diagnostic}")
      | none => .error (.decode label s!"not a row count: {v.diagnostic}")

/-- A generated key, which has to be there and not empty. -/
def requireKey (key : Option Value) (table primaryKey : String) : Except Error Value :=
  let missing : Error :=
    .invalid .primaryKeyNotRetrievableAfterInsert
      s!"no value generated for '{table}.{primaryKey}'"
  match key with
  | some v => if v.isEmpty then .error missing else .ok v
  | none => .error missing

/-- What writes to one table go through, with the columns to stamp and the time to stamp. A writer
that is given no time reads the clock for each column that it stamps; here one time stands for both
readings, so a second that begins between them is not seen. -/
structure Writer (σ : Type) where
  gateway : Gateway σ
  schema : TableSchema
  createdColumn : Option String := none
  updatedColumn : Option String := none
  timestamp : String

namespace Writer
variable {σ : Type}

def stamped (w : Writer σ) (column : Option String) : Option String :=
  column.filter fun c => !c.isEmpty && w.schema.hasColumn c

def stamp (w : Writer σ) (column : Option String) (payload : Row) : Row :=
  (w.stamped column).elim payload fun c => payload.set c (.text w.timestamp)

def keepKnown (w : Writer σ) (payload : Row) : Row :=
  payload.filter fun column _ => w.schema.hasColumn column

def unknownColumns (w : Writer σ) (payload : Row) : List Event :=
  (payload.columns.filter fun c => !w.schema.hasColumn c).map (.unknownColumn w.schema.name ·)

/-- Whether a column is left to the database. -/
def isGenerated (w : Writer σ) (column : String) (v : Value) : Bool :=
  w.schema.isAutoincrement column && v.isEmpty

def generatedColumns (w : Writer σ) (payload : Row) : List Event :=
  (payload.filter w.isGenerated).columns.map (.emptyAutoincrement w.schema.name ·)

def stampInsert (w : Writer σ) (payload : Row) : Row :=
  w.stamp w.updatedColumn (w.stamp w.createdColumn payload)

/-- A payload as it is inserted: stamped, without unknown columns and without empty
autoincrement columns. -/
def prepareInsert (w : Writer σ) (payload : Row) : Row :=
  (w.keepKnown (w.stampInsert payload)).filter fun column v => !w.isGenerated column v

def insertEvents (w : Writer σ) (payload : Row) : List Event :=
  w.unknownColumns (w.stampInsert payload)
    ++ w.generatedColumns (w.keepKnown (w.stampInsert payload))

/-- A payload as rows are updated with it: stamped and without unknown columns. -/
def prepareUpdate (w : Writer σ) (payload : Row) : Row :=
  w.keepKnown (w.stamp w.updatedColumn payload)

def updateEvents (w : Writer σ) (payload : Row) : List Event :=
  w.unknownColumns (w.stamp w.updatedColumn payload)

def preparedInsert (w : Writer σ) (payload : Row) : Action σ Row := do
  Action.report (w.insertEvents payload)
  return w.prepareInsert payload

def preparedUpdate (w : Writer σ) (payload : Row) : Action σ Row := do
  Action.report (w.updateEvents payload)
  return w.prepareUpdate payload

def filterExpr (w : Writer σ) (criteria : Criteria) : Except Error Sql.Expr :=
  criteria.toFilter.toExpr w.gateway.quote .rowFilter

def countStatement (w : Writer σ) (filter : Sql.Expr) : Sql.Statement :=
  (((Sql.Select.ofTable w.schema.name).withDialect w.gateway.dialect).andWhere filter).count
    countAlias

def countMatching (w : Writer σ) (filter : Sql.Expr) : Action σ Nat := do
  let rows ← w.gateway.queryStatement (w.countStatement filter)
  Action.ofExcept (readCount rows countAlias)

def insertStatement (w : Writer σ) (row : Row) : Except Error Sql.Statement :=
  (((Sql.Insert.ofTable w.schema.name).withDialect w.gateway.dialect).setAll row).build

def updateStatement (w : Writer σ) (row : Row) (filter : Sql.Expr) : Except Error Sql.Statement :=
  ((((Sql.Update.ofTable w.schema.name).withDialect w.gateway.dialect).setAll row).andWhere
    filter).build

def deleteStatement (w : Writer σ) (filter : Sql.Expr) : Sql.Statement :=
  (((Sql.Delete.ofTable w.schema.name).withDialect w.gateway.dialect).andWhere filter).build

/-- Inserts a row and reads its generated key back into it. -/
def insert (w : Writer σ) (payload : Row) : Action σ WriteOutcome := do
  if payload.isEmpty then throw (Sql.Insert.emptyPayload w.schema.name)
  let row ← w.preparedInsert payload
  let statement ← Action.ofExcept (w.insertStatement row)
  let _ ← w.gateway.executeStatement statement
  let primaryKey := w.schema.primaryKey
  let key ← w.gateway.lastKey (w.gateway.dialect.keySequence? w.schema.name primaryKey)
  let key ← Action.ofExcept (requireKey key w.schema.name primaryKey)
  return .inserted (row.set primaryKey key)

/-- Updates the rows that meet criteria, if there are any. Empty criteria are met by all. -/
def updateMatching (w : Writer σ) (payload : Row) (criteria : Criteria) :
    Action σ WriteOutcome := do
  if payload.isEmpty then throw (Sql.Update.emptyPayload w.schema.name)
  let row ← w.preparedUpdate payload
  let filter ← Action.ofExcept (w.filterExpr criteria)
  let statement ← Action.ofExcept (w.updateStatement row filter)
  if (← w.countMatching filter) = 0 then
    Action.report [.updateMatchedNothing w.schema.name]
    return .noMatchingRows
  return .executed (← w.gateway.executeStatement statement)

/-- Deletes the rows that meet criteria, if there are any. Empty criteria delete nothing. -/
def deleteMatching (w : Writer σ) (criteria : Criteria) : Action σ WriteOutcome := do
  if criteria.isEmpty then
    Action.report [.deleteWithoutCriteria w.schema.name]
    return .noMatchingRows
  let filter ← Action.ofExcept (w.filterExpr criteria)
  if (← w.countMatching filter) = 0 then
    Action.report [.deleteMatchedNothing w.schema.name]
    return .noMatchingRows
  return .executed (← w.gateway.executeStatement (w.deleteStatement filter))

end Writer

end TableAccess
