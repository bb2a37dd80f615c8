import TableAccess.Dialect
import TableAccess.Value

/-!
# Statements and their bound values

The values of a statement are collected in the order in which its text refers to them, and the
number of a placeholder is the length of the list once its value is on it.
-/
namespace TableAccess.Sql

/-- Bound values in the order of their placeholders. -/
structure ParamList where
  values : List Value := []
  deriving DecidableEq

namespace ParamList

def empty : ParamList := ⟨[]⟩

def size (ps : ParamList) : Nat := ps.values.length

def push (ps : ParamList) (v : Value) : ParamList := ⟨ps.values ++ [v]⟩

/-- The placeholder that a value gets, and the list with the value. -/
def bind (ps : ParamList) (d : Dialect) (v : Value) : String × ParamList :=
  (d.placeholder (ps.push v).size, ps.push v)

def bindAll (d : Dialect) : List Value → ParamList → List String × ParamList
  | [], ps => ([], ps)
  | v :: vs, ps =>
    let (p, ps) := ps.bind d v
    let (rest, ps) := bindAll d vs ps
    (p :: rest, ps)

def kinds (ps : ParamList) : List BindKind := ps.values.map Value.bindKind

end ParamList

/-- The text of a statement with the values for its placeholders. -/
structure Statement where
  sql : String
  params : List Value
  deriving DecidableEq

def Statement.kinds (s : Statement) : List BindKind := s.params.map Value.bindKind

end TableAccess.Sql
