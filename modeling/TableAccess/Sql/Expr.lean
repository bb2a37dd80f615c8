import TableAccess.Sql.Statement

/-!
# Filter expressions

The form of a filter that statements are rendered from. Rendering appends the bound values to
a list that the whole statement shares, so that placeholders of different clauses never
collide. A group is flat: conjunctions added to it are taken apart into their members.
-/
namespace TableAccess.Sql

/-- A filter. -/
inductive Expr where
  | all (members : List Expr)
  | any (members : List Expr)
  | compare (column op : String) (value : Value)
  | nullCheck (column : String) (isNull : Bool)
  | inList (column : String) (literals : List String) (negated : Bool)
  | template (sql : String) (params : List Value)
  | always
  | never

namespace Expr

def eq (column : String) (value : Value) : Expr := .compare column "=" value

/-- Membership in a list of literals. No value is in the empty list. -/
def inLiterals (column : String) (literals : List String) (negated : Bool) : Expr :=
  match literals, negated with
  | [], false => .never
  | [], true => .always
  | _, _ => .inList column literals negated

mutual

def isEmpty : Expr → Bool
  | .all members => allEmpty members
  | .any members => allEmpty members
  | _ => false

def allEmpty : List Expr → Bool
  | [] => true
  | e :: es => isEmpty e && allEmpty es

end

/-- Whether an expression stands in parentheses inside a group: groups and templates keep
their own precedence. -/
def isGrouped : Expr → Bool
  | .all _ | .any _ | .template _ _ => true
  | _ => false

def parenthesized (s : String) : String := "(" ++ s ++ ")"

/-- Replaces question marks by placeholders as long as there are values. -/
def fillTemplate (d : Dialect) : List Char → List Value → Sql.ParamList → List Char × Sql.ParamList
  | [], _, ps => ([], ps)
  | c :: cs, vs, ps =>
    match vs with
    | v :: rest =>
      if c = '?' then
        let (p, ps) := ps.bind d v
        let (out, ps) := fillTemplate d cs rest ps
        (p.toList ++ out, ps)
      else
        let (out, ps) := fillTemplate d cs vs ps
        (c :: out, ps)
    | [] =>
      let (out, ps) := fillTemplate d cs [] ps
      (c :: out, ps)

mutual

/-- The text of an expression, its values appended to the list. -/
def render (d : Dialect) : Expr → ParamList → String × ParamList
  | .all members, ps =>
    let (parts, ps) := renderMembers d members ps
    (" AND ".intercalate parts, ps)
  | .any members, ps =>
    let (parts, ps) := renderMembers d members ps
    (" OR ".intercalate parts, ps)
  | .compare column op value, ps =>
    let (p, ps) := ps.bind d value
    (column ++ " " ++ op ++ " " ++ p, ps)
  | .nullCheck column isNull, ps =>
    (column ++ (if isNull then " IS NULL" else " IS NOT NULL"), ps)
  | .inList column literals negated, ps =>
    (column ++ (if negated then " NOT IN (" else " IN (") ++ ", ".intercalate literals ++ ")", ps)
  | .template sql params, ps =>
    let (out, ps) := fillTemplate d sql.toList params ps
    (String.ofList out, ps)
  | .always, ps => ("1=1", ps)
  | .never, ps => ("1=0", ps)

/-- The texts of the members of a group, the empty ones left out and groups in parentheses. -/
def renderMembers (d : Dialect) : List Expr → ParamList → List String × ParamList
  | [], ps => ([], ps)
  | e :: es, ps =>
    if isEmpty e then renderMembers d es ps
    else
      let (s, ps) := render d e ps
      let (rest, ps) := renderMembers d es ps
      ((if isGrouped e then parenthesized s else s) :: rest, ps)

end

mutual

/-- The members that an expression adds to a flat conjunction. -/
def conjuncts : Expr → List Expr
  | .all members => conjunctsOf members
  | e => if isEmpty e then [] else [e]

def conjunctsOf : List Expr → List Expr
  | [] => []
  | e :: es => conjuncts e ++ conjunctsOf es

end

end Expr

/-- The conjunction of a clause, kept flat. -/
structure ExprGroup where
  members : List Expr := []

namespace ExprGroup

def empty : ExprGroup := ⟨[]⟩

def and (g : ExprGroup) (e : Expr) : ExprGroup := ⟨g.members ++ e.conjuncts⟩

def isEmpty (g : ExprGroup) : Bool := g.members.isEmpty

def size (g : ExprGroup) : Nat := g.members.length

def render (d : Dialect) (g : ExprGroup) (ps : ParamList) : String × ParamList :=
  (Expr.all g.members).render d ps

/-- A clause with its keyword in front, nothing if the group has no text. -/
def renderClause (d : Dialect) (keyword : String) (g : ExprGroup) (ps : ParamList) :
    String × ParamList :=
  if g.isEmpty then ("", ps)
  else
    let (s, ps) := g.render d ps
    (if s.isEmpty then "" else keyword ++ s, ps)

end ExprGroup

end TableAccess.Sql
