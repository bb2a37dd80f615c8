import TableAccess.Json.Fields
import TableAccess.Value

/-!
# Columns of a table

What a catalog knows about a column, and its form in a document.
-/
namespace TableAccess

structure Column where
  name : String
  type : String
  size : Option UInt32 := none
  scale : Option UInt32 := none
  notNull : Bool := false
  default : Option Value := none
  autoincrement : Bool := false
  primary : Bool := false
  deriving DecidableEq

namespace Column

def ofType (name type : String) : Column := { name := name, type := type }

def withSize (c : Column) (n : UInt32) : Column := { c with size := some n }

def withScale (c : Column) (n : UInt32) : Column := { c with scale := some n }

def required (c : Column) : Column := { c with notNull := true }

def withDefault (c : Column) (v : Value) : Column := { c with default := some v }

def generated (c : Column) : Column := { c with autoincrement := true }

/-- The column as a primary key, which is never null. -/
def asPrimary (c : Column) : Column := { c with primary := true, notNull := true }

def fieldNames : List String :=
  ["name", "type", "size", "scale", "not_null", "default", "autoinc", "primary"]

/-- The column that a document describes. Only its name and its type have to be there. -/
def ofDocument? (d : Json.Document) : Option Column := do
  match ← d.fields? fieldNames with
  | [some name, some type, size, scale, notNull, default, autoincrement, primary] =>
    let name ← name.text?
    let type ← type.text?
    let size ← Json.Document.orElse? none (Json.Document.nullable? Json.Document.uint32?) size
    let scale ← Json.Document.orElse? none (Json.Document.nullable? Json.Document.uint32?) scale
    let notNull ← Json.Document.orElse? false Json.Document.bool? notNull
    let default ← Json.Document.orElse? none (Json.Document.nullable? Value.ofDocument?) default
    let autoincrement ← Json.Document.orElse? false Json.Document.bool? autoincrement
    let primary ← Json.Document.orElse? false Json.Document.bool? primary
    return ⟨name, type, size, scale, notNull, default, autoincrement, primary⟩
  | _ => none

def parse? (s : String) : Option Column := (Json.Document.read? s).bind ofDocument?

def optionalNumber : Option UInt32 → Json
  | none => .null
  | some n => .int (.ofUInt32 n)

/-- The column as untyped data, its fields in their own order. -/
def toJson (c : Column) : Json :=
  .object
    [("name", .string c.name), ("type", .string c.type), ("size", optionalNumber c.size),
      ("scale", optionalNumber c.scale), ("not_null", .bool c.notNull),
      ("default", (c.default.map Value.toJson).getD .null),
      ("autoinc", .bool c.autoincrement), ("primary", .bool c.primary)]

end Column

end TableAccess
