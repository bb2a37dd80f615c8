import TableAccess.Sql.Expr

/-!
# SELECT statements

A selection collects its parts step by step and is rendered at the end. `Select.count` renders
the statement that counts the rows of the WHERE clause alone.
-/
namespace TableAccess.Sql

/-- A SELECT statement in the making. -/
structure Select where
  dialect : Dialect := .default
  source : String
  isDistinct : Bool := false
  columns : List String := ["*"]
  filter : ExprGroup := .empty
  groups : List String := []
  groupFilter : ExprGroup := .empty
  orders : List String := []
  limit? : Option Nat := none
  offset? : Option Nat := none

namespace Select

def ofTable (table : String) : Select := { source := table }

def withDialect (s : Select) (d : Dialect) : Select := { s with dialect := d }

def distinct (s : Select) (b : Bool) : Select := { s with isDistinct := b }

/-- Selects columns; an empty list changes nothing. -/
def cols (s : Select) (names : List String) : Select :=
  if names.isEmpty then s else { s with columns := names }

def andWhere (s : Select) (e : Expr) : Select := { s with filter := s.filter.and e }

def andHaving (s : Select) (e : Expr) : Select := { s with groupFilter := s.groupFilter.and e }

def groupBy (s : Select) (terms : List String) : Select := { s with groups := s.groups ++ terms }

def orderBy (s : Select) (terms : List String) : Select := { s with orders := s.orders ++ terms }

def limit (s : Select) (n : Nat) : Select := { s with limit? := some n }

def offset (s : Select) (n : Nat) : Select := { s with offset? := some n }

/-- A list of terms behind its keyword, nothing if there are none. -/
def termClause (keyword : String) (terms : List String) : String :=
  if terms.isEmpty then "" else keyword ++ ", ".intercalate terms

def projection (s : Select) : String :=
  (if s.isDistinct then "DISTINCT " else "") ++ s.dialect.pagingHead s.limit? s.offset?
    ++ ", ".intercalate s.columns

def rowsClause (s : Select) : String × ParamList :=
  let (clause, ps) := s.filter.renderClause s.dialect " WHERE " .empty
  (" FROM " ++ s.source ++ clause, ps)

def build (s : Select) : Statement :=
  let (rows, ps) := s.rowsClause
  let (having, ps) := s.groupFilter.renderClause s.dialect " HAVING " ps
  ⟨"SELECT " ++ s.projection ++ rows ++ termClause " GROUP BY " s.groups ++ having
      ++ termClause " ORDER BY " s.orders
      ++ s.dialect.pagingTail s.limit? s.offset? (!s.orders.isEmpty),
    ps.values⟩

/-- The statement that counts the rows of the WHERE clause, under a name. -/
def count (s : Select) (label : String) : Statement :=
  let (rows, ps) := s.rowsClause
  ⟨"SELECT COUNT(*) AS " ++ label ++ rows, ps.values⟩

end Select

end TableAccess.Sql
