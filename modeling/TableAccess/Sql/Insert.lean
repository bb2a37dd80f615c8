import TableAccess.Sql.Statement
import TableAccess.Error
import TableAccess.Row

/-!
# INSERT statements

Every value is bound. No row is inserted from defaults alone: a statement without columns is
refused.
-/
namespace TableAccess.Sql

/-- An INSERT statement in the making. -/
structure Insert where
  dialect : Dialect := .default
  table : String
  entries : List (String × Value) := []

namespace Insert

def ofTable (table : String) : Insert := { table := table }

def withDialect (i : Insert) (d : Dialect) : Insert := { i with dialect := d }

/-- One more column. A column set twice is written twice. -/
def set (i : Insert) (column : String) (value : Value) : Insert :=
  { i with entries := i.entries ++ [(column, value)] }

def setAll (i : Insert) (row : Row) : Insert := { i with entries := i.entries ++ row.entries }

/-- The columns in the order in which their values are bound. -/
def columns (i : Insert) : List String := i.entries.map (·.1)

def emptyPayload (table : String) : Error :=
  .invalid .emptyPayload ("nothing to insert into '" ++ table ++ "'")

def build (i : Insert) : Except Error Statement :=
  if i.entries.isEmpty then .error (emptyPayload i.table)
  else
    let (placeholders, ps) := ParamList.bindAll i.dialect (i.entries.map (·.2)) .empty
    .ok ⟨"INSERT INTO " ++ i.table ++ " (" ++ ", ".intercalate i.columns ++ ") VALUES ("
        ++ ", ".intercalate placeholders ++ ")", ps.values⟩

end Insert

end TableAccess.Sql
