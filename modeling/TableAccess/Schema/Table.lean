import TableAccess.Error
import TableAccess.Schema.Column
import TableAccess.Text.Blank

/-!
# Tables

The columns of one table with its primary key, and a catalog of tables known beforehand.
-/
namespace TableAccess

/-- A table: neither its name nor the name of its primary key is blank. -/
structure TableSchema where
  name : String
  columns : List Column
  primaryKey : String
  deriving DecidableEq

namespace TableSchema

def noPrimaryKey (table : String) : Error :=
  .invalid .primaryColumnNotConfigured s!"primary key column name not set for table '{table}'"

def noName : Error := .invalid .tableNameNotConfigured "table name not set"

/-- A table; the primary key is checked before the name. -/
def create (name : String) (columns : List Column) (primaryKey : String) :
    Except Error TableSchema :=
  if Text.isAllBlank primaryKey then .error (noPrimaryKey name)
  else if Text.isAllBlank name then .error noName
  else .ok ⟨name, columns, primaryKey⟩

def columnNames (t : TableSchema) : List String := t.columns.map (·.name)

def column? (t : TableSchema) (name : String) : Option Column :=
  t.columns.find? (·.name == name)

def hasColumn (t : TableSchema) (name : String) : Bool := (t.column? name).isSome

def isAutoincrement (t : TableSchema) (name : String) : Bool :=
  (t.column? name).any (·.autoincrement)

end TableSchema

/-- Tables with their columns, each table once. -/
structure Catalog where
  tables : List (String × List Column) := []

namespace Catalog

def empty : Catalog := ⟨[]⟩

/-- The catalog with a table in place of any table of that name. -/
def register (c : Catalog) (table : String) (columns : List Column) : Catalog :=
  ⟨(table, columns) :: c.tables.filter (·.1 != table)⟩

def hasTable (c : Catalog) (table : String) : Bool := c.tables.any (·.1 == table)

def size (c : Catalog) : Nat := c.tables.length

def isEmpty (c : Catalog) : Bool := c.tables.isEmpty

def columns (c : Catalog) (table : String) : Except Error (List Column) :=
  match c.tables.find? (·.1 == table) with
  | some entry => .ok entry.2
  | none => .error (.gateway s!"table '{table}' is not registered")

end Catalog

end TableAccess
