import TableAccess.Schema.Table

/-!
# Configurations of a model

Which table a model works on, its primary key, the columns that carry the times of creation and
of the last change, and its columns if they are known beforehand.
-/
namespace TableAccess

structure Config where
  tableName : String := ""
  primaryColumn : String := ""
  createdColumn : Option String := none
  updatedColumn : Option String := none
  columns : Option (List Column) := none
  deriving DecidableEq

namespace Config

def ofTable (table primaryColumn : String) : Config :=
  { tableName := table, primaryColumn := primaryColumn }

def withCreatedColumn (c : Config) (column : String) : Config :=
  { c with createdColumn := some column }

def withUpdatedColumn (c : Config) (column : String) : Config :=
  { c with updatedColumn := some column }

def withColumns (c : Config) (columns : List Column) : Config := { c with columns := some columns }

def fieldNames : List String :=
  ["table_name", "primary_col", "created_timestamp_column_name", "updated_timestamp_column_name",
    "table_cols"]

/-- The configuration that a document describes; every field may be missing. -/
def ofDocument? (d : Json.Document) : Option Config := do
  match ← d.fields? fieldNames with
  | [table, primary, created, updated, columns] =>
    let table ← Json.Document.orElse? "" Json.Document.text? table
    let primary ← Json.Document.orElse? "" Json.Document.text? primary
    let created ← Json.Document.orElse? none (Json.Document.nullable? Json.Document.text?) created
    let updated ← Json.Document.orElse? none (Json.Document.nullable? Json.Document.text?) updated
    let columns ←
      Json.Document.orElse? none
        (Json.Document.nullable? (Json.Document.list? Column.ofDocument?)) columns
    return ⟨table, primary, created, updated, columns⟩
  | _ => none

def malformed : Error := .config "the document does not describe a configuration"

def parse (s : String) : Except Error Config :=
  match (Json.Document.read? s).bind ofDocument? with
  | some c => .ok c
  | none => .error malformed

def optionalText : Option String → Json
  | none => .null
  | some s => .string s

/-- The configuration as untyped data, its fields in their own order. -/
def toJson (c : Config) : Json :=
  .object
    [("table_name", .string c.tableName), ("primary_col", .string c.primaryColumn),
      ("created_timestamp_column_name", optionalText c.createdColumn),
      ("updated_timestamp_column_name", optionalText c.updatedColumn),
      ("table_cols", (c.columns.map fun cs => Json.array (cs.map Column.toJson)).getD .null)]

/-- Whether the table and the primary key are set; the primary key is checked first. -/
def validate (c : Config) : Except Error Unit :=
  if Text.isAllBlank c.primaryColumn then
    .error (.invalid .primaryColumnNotConfigured
      s!"primary key column not configured for '{c.tableName}'")
  else if Text.isAllBlank c.tableName then
    .error (.invalid .tableNameNotConfigured "table name not configured")
  else .ok ()

end Config

end TableAccess
