import TableAccess.Error
import TableAccess.Row

/-!
# Records

What rows are turned into, and what can be saved or deleted by its primary key.
-/
namespace TableAccess

/-- What can be made from a row. -/
class FromRow (α : Type) where
  /-- Makes a thing from a row, or fails on a row that lacks something. -/
  ofRow : Row → Except Error α

/-- What has column data and a primary key, and may not be stored yet. -/
class Entity (ρ : Type) where
  /-- The column data. -/
  data : ρ → Row
  /-- The value of the primary key column, if there is one. -/
  primaryValue? : ρ → String → Option Value
  /-- The same thing, no longer stored. -/
  markNew : ρ → ρ

instance : FromRow Row := ⟨.ok⟩

namespace Row

def require (r : Row) (column : String) : Except Error Value :=
  match r.get? column with
  | some v => .ok v
  | none => .error (.decode column "column not present in row")

def nth (r : Row) (i : Nat) : Except Error Value :=
  match r.values[i]? with
  | some v => .ok v
  | none => .error (.decode ("#" ++ toString i) "result row has too few columns")

end Row

/-- Column data that are stored, or still new. -/
structure Record where
  data : Row := .empty
  isNew : Bool := false
  deriving DecidableEq

namespace Record

def set (r : Record) (column : String) (v : Value) : Record :=
  { r with data := r.data.set column v }

def get? (r : Record) (column : String) : Option Value := r.data.get? column

def markNew (r : Record) : Record := { r with isNew := true }

instance : Entity Record := ⟨Record.data, Record.get?, markNew⟩

instance : FromRow Record := ⟨fun r => .ok ⟨r, false⟩⟩

end Record

end TableAccess
