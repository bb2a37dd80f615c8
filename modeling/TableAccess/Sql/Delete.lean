import TableAccess.Sql.Expr

/-!
# DELETE statements

Without a filter every row is deleted.
-/
namespace TableAccess.Sql

/-- A DELETE statement in the making. -/
structure Delete where
  dialect : Dialect := .default
  table : String
  filter : ExprGroup := .empty

namespace Delete

def ofTable (table : String) : Delete := { table := table }

def withDialect (s : Delete) (d : Dialect) : Delete := { s with dialect := d }

def andWhere (s : Delete) (e : Expr) : Delete := { s with filter := s.filter.and e }

def build (s : Delete) : Statement :=
  let (clause, ps) := s.filter.renderClause s.dialect " WHERE " .empty
  ⟨"DELETE FROM " ++ s.table ++ clause, ps.values⟩

end Delete

end TableAccess.Sql
