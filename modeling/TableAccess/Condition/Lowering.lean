import TableAccess.Condition.Basic
import TableAccess.Sql.Expr

/-!
# From conditions to expressions

Single values are bound, the members of a list are written as literals. A condition that no
expression can be made from is refused before any text is rendered.
-/
namespace TableAccess

namespace Condition

/-- A list member as a literal. -/
def literal (quote : String → String) (c : Clause) (column : String) :
    Value → Except Error String
  | .null => .ok "NULL"
  | .bool b => .ok (if b then "1" else "0")
  | .int i => .ok (toString i.toInt)
  | .float x => if x.isFinite then .ok x.toText else .error (c.error (.notFinite column x))
  | .text s => .ok (quote s)

def membership (quote : String → String) (c : Clause) (column : String) (vs : List Value)
    (negated : Bool) : Except Error Sql.Expr :=
  (vs.mapM (literal quote c column)).map fun literals =>
    Sql.Expr.inLiterals column literals negated

/-- The operator of a comparison; a list is compared by membership if none is given, and a
single value by equality. -/
def resolveOperator (c : Clause) (column : String) (operand : Operand) :
    Option String → Except Error Operator
  | none =>
    match operand with
    | .scalar _ => .ok .eq
    | .list _ => .ok .isIn
  | some s =>
    match Operator.parse? s with
    | some op => .ok op
    | none => .error (c.error (.unsupportedOperator s column))

def lowerOperand (quote : String → String) (c : Clause) (column : String) (op : Operator) :
    Operand → Except Error Sql.Expr
  | .list vs =>
    if op.isMembership then membership quote c column vs (op == .notIn)
    else .error (c.error (.listNeedsMembership column op))
  | .scalar v =>
    if op.isMembership then membership quote c column [v] (op == .notIn)
    else if op == .is || op == .isNot then
      if v.isNull then .ok (.nullCheck column (op == .is))
      else .error (c.error (.onlyNull op column))
    else .ok (.compare column op.sql v)

def lowerCompare (quote : String → String) (c : Clause) (column : String) (op : Option String)
    (operand : Operand) : Except Error Sql.Expr :=
  let column := Text.trim column
  if column.isEmpty then .error (c.error .blankColumn)
  else do
    let op ← resolveOperator c column operand op
    lowerOperand quote c column op operand

/-- A raw text, which needs one parameter for each question mark. -/
def lowerRaw (c : Clause) (sql : String) (params : List Value) : Except Error Sql.Expr :=
  let placeholders := sql.toList.count '?'
  if Text.isAllBlank sql then .error (c.error .blankRaw)
  else if placeholders ≠ params.length then
    .error (c.error (.placeholderCount sql placeholders params.length))
  else .ok (.template sql params)

mutual

def lower (quote : String → String) (c : Clause) : Condition → Except Error Sql.Expr
  | .compare column op operand => lowerCompare quote c column op operand
  | .raw sql params => lowerRaw c sql params
  | .any members =>
    if members.isEmpty then .error (c.error .emptyGroup)
    else (lowerAll quote c members).map .any
  | .all members =>
    if members.isEmpty then .error (c.error .emptyGroup)
    else (lowerAll quote c members).map .all

/-- The expressions of conditions, up to the first one that is refused. -/
def lowerAll (quote : String → String) (c : Clause) :
    List Condition → Except Error (List Sql.Expr)
  | [] => .ok []
  | x :: xs => do
    let e ← lower quote c x
    let es ← lowerAll quote c xs
    return e :: es

end

end Condition

namespace Filter

def toExpr (quote : String → String) (c : Clause) (f : Filter) : Except Error Sql.Expr :=
  (Condition.lowerAll quote c f.conditions).map .all

/-- The text of a filter, its values appended to a list. -/
def compileInto (t : Target) (c : Clause) (f : Filter) (ps : Sql.ParamList) :
    Except Error (String × Sql.ParamList) :=
  (f.toExpr t.quote c).map fun e => e.render t.dialect ps

def compile (t : Target) (c : Clause) (f : Filter) : Except Error (String × List Value) :=
  (f.compileInto t c .empty).map fun r => (r.1, r.2.values)

end Filter

end TableAccess
