import TableAccess.Condition.Operator
import TableAccess.Error
import TableAccess.Value

/-!
# Conditions

A filter is a list of conditions that must all hold: comparisons of a column with a value or a
list, raw texts with question marks for their parameters, and groups of conditions of which one
or all must hold. The filters of rows and of groups have the same form; only the kind of the
error differs.
-/
namespace TableAccess

/-- Which clause a filter is for. -/
inductive Clause where
  | rowFilter
  | groupFilter
  deriving DecidableEq

inductive Operand where
  | scalar (v : Value)
  | list (vs : List Value)
  deriving DecidableEq

/-- One entry of a filter, the operator as the caller wrote it. -/
inductive Condition where
  | compare (column : String) (op : Option String) (operand : Operand)
  | raw (sql : String) (params : List Value)
  | any (members : List Condition)
  | all (members : List Condition)

structure Filter where
  conditions : List Condition := []

namespace Condition

def eq (column : String) (v : Value) : Condition := .compare column none (.scalar v)

def cmp (column op : String) (v : Value) : Condition := .compare column (some op) (.scalar v)

def isIn (column : String) (vs : List Value) : Condition := .compare column none (.list vs)

def notIn (column : String) (vs : List Value) : Condition :=
  .compare column (some "NOT IN") (.list vs)

def isNull (column : String) : Condition := cmp column "IS" .null

def isNotNull (column : String) : Condition := cmp column "IS NOT" .null

end Condition

namespace Filter

def empty : Filter := ⟨[]⟩

def and (f : Filter) (c : Condition) : Filter := ⟨f.conditions ++ [c]⟩

def isEmpty (f : Filter) : Bool := f.conditions.isEmpty

def size (f : Filter) : Nat := f.conditions.length

end Filter

inductive FilterFault where
  | notAList (got : Json)
  | notAnObject (got : Json)
  | rawNotText
  | rawParamNotScalar
  | rawParamsNotAList
  | noColumn (entry : Json)
  | columnNotText
  | operatorNotText
  | noValue (column : String)
  | memberNotScalar (column : String)
  | valueNotScalarOrList (column : String)
  | blankRaw
  | placeholderCount (sql : String) (placeholders params : Nat)
  | emptyGroup
  | blankColumn
  | unsupportedOperator (op column : String)
  | listNeedsMembership (column : String) (op : Operator)
  | onlyNull (op : Operator) (column : String)
  | notFinite (column : String) (x : Binary64)

def FilterFault.message : FilterFault → String
  | .notAList got => s!"expected a list, got {got.compress}"
  | .notAnObject got => s!"entry must be an object, got {got.compress}"
  | .rawNotText => "'raw' must be a string"
  | .rawParamNotScalar => "raw params must be scalars"
  | .rawParamsNotAList => "'params' must be a list"
  | .noColumn entry => s!"entry is missing a column: {entry.compress}"
  | .columnNotText => "column must be a string"
  | .operatorNotText => "operator must be a string"
  | .noValue column => s!"entry for '{column}' is missing a value"
  | .memberNotScalar column => s!"list for '{column}' must hold scalars"
  | .valueNotScalarOrList column => s!"value for '{column}' must be a scalar or list"
  | .blankRaw => "raw fragment is empty"
  | .placeholderCount sql placeholders params =>
    s!"raw fragment '{sql}' has {placeholders} placeholder(s) but {params} param(s)"
  | .emptyGroup => "condition group is empty"
  | .blankColumn => "column name is empty"
  | .unsupportedOperator op column => s!"unsupported operator '{op}' for '{column}'"
  | .listNeedsMembership column op =>
    s!"list value for '{column}' needs IN or NOT IN, got '{op.sql}'"
  | .onlyNull op column => s!"'{op.sql}' on '{column}' only accepts null"
  | .notFinite column x => s!"list for '{column}' holds non-finite number {x.toText}"

namespace Clause

def errorKind : Clause → ErrorKind
  | .rowFilter => .badWhereParam
  | .groupFilter => .badHavingParam

/-- The parameter that holds the filter of a clause. -/
def key : Clause → String
  | .rowFilter => "where"
  | .groupFilter => "having"

def error (c : Clause) (fault : FilterFault) : Error :=
  .invalid c.errorKind (c.key ++ ": " ++ fault.message)

end Clause

end TableAccess
