import TableAccess.Condition.Basic
import TableAccess.Row

/-!
# Match criteria

Which rows an update or a deletion is for: columns that equal a value or are in a list. Giving a
column again replaces what was asked of it where it stands.
-/
namespace TableAccess

/-- Columns with what they must match, each column once. -/
structure Criteria where
  entries : List (String × Operand) := []
  nodup : (entries.map (·.1)).Nodup := by decide
  deriving DecidableEq

namespace Criteria

def empty : Criteria := {}

def set (c : Criteria) (column : String) (operand : Operand) : Criteria :=
  ⟨Row.setEntry column operand c.entries, Row.nodup_setEntry c.nodup⟩

def withValue (c : Criteria) (column : String) (v : Value) : Criteria := c.set column (.scalar v)

def withList (c : Criteria) (column : String) (vs : List Value) : Criteria :=
  c.set column (.list vs)

def isEmpty (c : Criteria) : Bool := c.entries.isEmpty

def size (c : Criteria) : Nat := c.entries.length

def ofRow (r : Row) : Criteria := r.entries.foldl (fun c e => c.withValue e.1 e.2) empty

def toFilter (c : Criteria) : Filter := ⟨c.entries.map fun e => .compare e.1 none e.2⟩

def malformed (detail : String) : Error := .invalid .badWhereParam detail

/-- What untyped data ask of a column. -/
def operandOfJson (column : String) : Json → Except Error Operand
  | .array items =>
    (items.mapM fun j =>
      match Value.ofJson? j with
      | some v => Except.ok v
      | none => .error (malformed s!"list for '{column}' must hold scalars")).map .list
  | j =>
    match Value.ofJson? j with
    | some v => .ok (.scalar v)
    | none => .error (malformed s!"value for '{column}' must be a scalar")

def ofJson : Json → Except Error Criteria
  | .object members =>
    members.foldlM (fun c m => (operandOfJson m.1 m.2).map (c.set m.1)) empty
  | j => .error (malformed s!"match criteria must be an object, got {j.compress}")

end Criteria

end TableAccess
