import TableAccess.Sql.Expr
import TableAccess.Error
import TableAccess.Row

/-!
# UPDATE statements

The values set are bound before those of the filter. Without a filter every row is updated;
without a column the statement is refused.
-/
namespace TableAccess.Sql

/-- An UPDATE statement in the making. -/
structure Update where
  dialect : Dialect := .default
  table : String
  entries : List (String × Value) := []
  filter : ExprGroup := .empty

namespace Update

def ofTable (table : String) : Update := { table := table }

def withDialect (u : Update) (d : Dialect) : Update := { u with dialect := d }

def set (u : Update) (column : String) (value : Value) : Update :=
  { u with entries := u.entries ++ [(column, value)] }

def setAll (u : Update) (row : Row) : Update := { u with entries := u.entries ++ row.entries }

def andWhere (u : Update) (e : Expr) : Update := { u with filter := u.filter.and e }

def emptyPayload (table : String) : Error :=
  .invalid .emptyPayload ("nothing to update in '" ++ table ++ "'")

def build (u : Update) : Except Error Statement :=
  if u.entries.isEmpty then .error (emptyPayload u.table)
  else
    let (placeholders, ps) := ParamList.bindAll u.dialect (u.entries.map (·.2)) .empty
    let assignments := List.zipWith (fun e p => e.1 ++ " = " ++ p) u.entries placeholders
    let (clause, ps) := u.filter.renderClause u.dialect " WHERE " ps
    .ok ⟨"UPDATE " ++ u.table ++ " SET " ++ ", ".intercalate assignments ++ clause, ps.values⟩

end Update

end TableAccess.Sql
