import TableAccess.Proofs.Statements

/-!
# Builders step by step

The calls that a statement can be built with, as data, and what any sequence of them leaves in
the builder: filters and entries in the order of the calls, whatever stands between them.
-/
namespace TableAccess.Sql

section Steps
variable {β α ε : Type} (f : β → α → β)

/-- A component that each step appends to. -/
theorem foldl_appends (component : β → List ε) (written : α → List ε)
    (h : ∀ b a, component (f b a) = component b ++ written a) (b : β) (as : List α) :
    component (as.foldl f b) = component b ++ as.flatMap written := by
  induction as generalizing b with
  | nil => simp
  | cons a as ih => rw [List.foldl_cons, ih, h, List.flatMap_cons, List.append_assoc]

/-- A filter that some steps extend, each with a condition of its own, and that the other steps
leave alone. -/
theorem members_foldl (component : β → ExprGroup) (select : α → Option Expr)
    (h : ∀ b a, component (f b a) = (select a).elim (component b) (component b).and)
    (b : β) (as : List α) :
    (component (as.foldl f b)).members =
      (component b).members ++ (as.filterMap select).flatMap Expr.conjuncts := by
  induction as generalizing b with
  | nil => simp
  | cons a as ih =>
    rw [List.foldl_cons, ih, h, List.filterMap_cons]
    cases select a <;> simp [ExprGroup.and]

end Steps

theorem ExprGroup.members_foldl_and (g : ExprGroup) (es : List Expr) :
    (es.foldl ExprGroup.and g).members = g.members ++ es.flatMap Expr.conjuncts :=
  foldl_appends ExprGroup.and ExprGroup.members Expr.conjuncts (fun _ _ => rfl) g es

namespace Select

inductive Step where
  | dialect (d : Dialect)
  | distinct (b : Bool)
  | cols (names : List String)
  | andWhere (e : Expr)
  | andHaving (e : Expr)
  | groupBy (terms : List String)
  | orderBy (terms : List String)
  | limit (n : Nat)
  | offset (n : Nat)

def apply (s : Select) : Step → Select
  | .dialect d => s.withDialect d
  | .distinct b => s.distinct b
  | .cols names => s.cols names
  | .andWhere e => s.andWhere e
  | .andHaving e => s.andHaving e
  | .groupBy terms => s.groupBy terms
  | .orderBy terms => s.orderBy terms
  | .limit n => s.limit n
  | .offset n => s.offset n

/-- The selection that a sequence of steps builds. -/
def ofSteps (table : String) (steps : List Step) : Select := steps.foldl apply (ofTable table)

def where? : Step → Option Expr
  | .andWhere e => some e
  | _ => none

def having? : Step → Option Expr
  | .andHaving e => some e
  | _ => none

theorem members_filter (table : String) (steps : List Step) :
    (ofSteps table steps).filter.members = (steps.filterMap where?).flatMap Expr.conjuncts := by
  refine members_foldl apply Select.filter where? ?_ (ofTable table) steps
  intro s step
  cases step with
  | cols names => cases names <;> rfl
  | _ => rfl

theorem members_groupFilter (table : String) (steps : List Step) :
    (ofSteps table steps).groupFilter.members =
      (steps.filterMap having?).flatMap Expr.conjuncts := by
  refine members_foldl apply Select.groupFilter having? ?_ (ofTable table) steps
  intro s step
  cases step with
  | cols names => cases names <;> rfl
  | _ => rfl

end Select

namespace Insert

inductive Step where
  | dialect (d : Dialect)
  | set (column : String) (value : Value)
  | setAll (row : Row)

def apply (i : Insert) : Step → Insert
  | .dialect d => i.withDialect d
  | .set column value => i.set column value
  | .setAll row => i.setAll row

/-- The insertion that a sequence of steps builds. -/
def ofSteps (table : String) (steps : List Step) : Insert := steps.foldl apply (ofTable table)

def written : Step → List (String × Value)
  | .dialect _ => []
  | .set column value => [(column, value)]
  | .setAll row => row.entries

theorem entries_ofSteps (table : String) (steps : List Step) :
    (ofSteps table steps).entries = steps.flatMap written := by
  refine foldl_appends apply entries written ?_ (ofTable table) steps
  intro i step
  cases step <;> simp [apply, withDialect, set, setAll, written]

end Insert

namespace Update

inductive Step where
  | dialect (d : Dialect)
  | set (column : String) (value : Value)
  | setAll (row : Row)
  | andWhere (e : Expr)

def apply (u : Update) : Step → Update
  | .dialect d => u.withDialect d
  | .set column value => u.set column value
  | .setAll row => u.setAll row
  | .andWhere e => u.andWhere e

/-- The update that a sequence of steps builds. -/
def ofSteps (table : String) (steps : List Step) : Update := steps.foldl apply (ofTable table)

def written : Step → List (String × Value)
  | .set column value => [(column, value)]
  | .setAll row => row.entries
  | _ => []

def where? : Step → Option Expr
  | .andWhere e => some e
  | _ => none

theorem entries_ofSteps (table : String) (steps : List Step) :
    (ofSteps table steps).entries = steps.flatMap written := by
  refine foldl_appends apply entries written ?_ (ofTable table) steps
  intro u step
  cases step <;> simp [apply, withDialect, set, setAll, andWhere, written]

theorem members_filter (table : String) (steps : List Step) :
    (ofSteps table steps).filter.members = (steps.filterMap where?).flatMap Expr.conjuncts := by
  refine members_foldl apply Update.filter where? ?_ (ofTable table) steps
  intro u step
  cases step <;> rfl

end Update

namespace Delete

inductive Step where
  | dialect (d : Dialect)
  | andWhere (e : Expr)

def apply (s : Delete) : Step → Delete
  | .dialect d => s.withDialect d
  | .andWhere e => s.andWhere e

/-- The deletion that a sequence of steps builds. -/
def ofSteps (table : String) (steps : List Step) : Delete := steps.foldl apply (ofTable table)

def where? : Step → Option Expr
  | .andWhere e => some e
  | _ => none

theorem members_filter (table : String) (steps : List Step) :
    (ofSteps table steps).filter.members = (steps.filterMap where?).flatMap Expr.conjuncts := by
  refine members_foldl apply Delete.filter where? ?_ (ofTable table) steps
  intro s step
  cases step <;> rfl

end Delete

end TableAccess.Sql
