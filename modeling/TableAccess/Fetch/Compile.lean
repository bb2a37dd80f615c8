import TableAccess.Condition.Lowering
import TableAccess.Event
import TableAccess.Fetch.Json
import TableAccess.Sql.Select

/-!
# Selections from fetch parameters

Each parameter sets one part of a selection. The parameters are taken in a fixed order, which
decides what is reported first; one that the caller may not give is passed over with a report.
-/
namespace TableAccess.FetchParams

/-- The order in which parameters are taken. -/
def compileOrder : List ParamKey :=
  [.distinct, .columns, .rowFilter, .grouping, .groupFilter, .ordering, .limit, .offset]

def apply (p : FetchParams) (t : Target) (key : ParamKey) (s : Sql.Select) :
    Except Error Sql.Select :=
  match key with
  | .distinct => .ok (s.distinct (p.distinct.getD false))
  | .columns => .ok (p.columns.elim s s.cols)
  | .rowFilter => p.rowFilter.elim (.ok s) fun f => (f.toExpr t.quote .rowFilter).map s.andWhere
  | .grouping => .ok (p.grouping.elim s s.groupBy)
  | .groupFilter =>
    p.groupFilter.elim (.ok s) fun f => (f.toExpr t.quote .groupFilter).map s.andHaving
  | .ordering => .ok (p.ordering.elim s s.orderBy)
  | .limit => .ok (p.limit.elim s s.limit)
  | .offset => .ok (p.offset.elim s s.offset)

/-- Takes one parameter, unless it is disallowed. -/
def takeParam (p : FetchParams) (t : Target) (disallowed : List ParamKey) (s : Sql.Select)
    (key : ParamKey) : Logged Sql.Select := do
  if disallowed.contains key then
    if p.has key then report (.ignoredParam key)
    return s
  else
    liftExcept (p.apply t key s)
where
  liftExcept (r : Except Error Sql.Select) : Logged Sql.Select := ExceptT.mk (pure r)

def noTable : Error :=
  .invalid .tableNameNotConfigured "cannot compile a SELECT without a table name"

/-- The selection from a table, with reports. -/
def select (p : FetchParams) (t : Target) (disallowed : List ParamKey) (table : String) :
    Logged Sql.Select := do
  if Text.isAllBlank table then throw noTable
  compileOrder.foldlM (p.takeParam t disallowed) ((Sql.Select.ofTable table).withDialect t.dialect)

def compileLogged (p : FetchParams) (t : Target) (disallowed : List ParamKey) (table : String) :
    Logged Sql.Statement := do
  return (← p.select t disallowed table).build

def compile (p : FetchParams) (t : Target) (disallowed : List ParamKey) (table : String) :
    Except Error Sql.Statement :=
  ((p.compileLogged t disallowed table).run []).1

def compileJsonLogged (t : Target) (disallowed : List ParamKey) (table : String) (j : Json) :
    Logged Sql.Statement := do
  let p ← (ExceptT.mk (pure (ofJson disallowed j)) : Logged FetchParams)
  p.compileLogged t disallowed table

def compileJson (t : Target) (disallowed : List ParamKey) (table : String) (j : Json) :
    Except Error Sql.Statement :=
  ((compileJsonLogged t disallowed table j).run []).1

end TableAccess.FetchParams
