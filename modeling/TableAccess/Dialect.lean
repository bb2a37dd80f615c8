import TableAccess.Json.Document

/-!
# Dialects

The few places where databases disagree: how a placeholder is written, how a text is quoted,
which sequence holds generated keys, and how the number of rows is limited.
-/
namespace TableAccess

inductive Dialect where
  | postgres
  | mysql
  | sqlite
  | sqlserver
  deriving DecidableEq

namespace Dialect

def default : Dialect := .postgres

def name : Dialect → String
  | .postgres => "postgres"
  | .mysql => "mysql"
  | .sqlite => "sqlite"
  | .sqlserver => "sqlserver"

/-- The dialect of a name; one has a second name. -/
def ofName? (s : String) : Option Dialect :=
  if s = "sqlsrv" then some .sqlserver
  else [postgres, mysql, sqlite, sqlserver].find? (·.name == s)

/-- The dialect that a document holds: its name, or an object with the name as its one member
and null under it. -/
def ofDocument? : Json.Document → Option Dialect
  | .string s => s.bind ofName?
  | .object [(some s, .null)] => ofName? s
  | _ => none

def parse? (s : String) : Option Dialect := (Json.Document.read? s).bind ofDocument?

/-- The placeholder for the parameter with a number, counted from one. -/
def placeholder (d : Dialect) (n : Nat) : String :=
  match d with
  | .postgres => "$" ++ toString n
  | _ => "?"

def keySequence? (d : Dialect) (table primaryKey : String) : Option String :=
  match d with
  | .postgres => some (table ++ "_" ++ primaryKey ++ "_seq")
  | _ => none

/-- One character inside a quoted text: quotes are doubled, and backslashes where the dialect
reads them as escapes. -/
def quoteChar (d : Dialect) (c : Char) : List Char :=
  if c = '\'' then ['\'', '\'']
  else if c = '\\' ∧ d = .mysql then ['\\', '\\']
  else [c]

def quoteLiteral (d : Dialect) (s : String) : String :=
  String.ofList ('\'' :: s.toList.flatMap d.quoteChar ++ ['\''])

/-- Whether a limit is written before the columns. -/
def limitsBeforeColumns (d : Dialect) (limit offset : Option Nat) : Bool :=
  d = .sqlserver && limit.isSome && offset.isNone

def pagingHead (d : Dialect) (limit offset : Option Nat) : String :=
  match limit with
  | some n => if d.limitsBeforeColumns limit offset then "TOP " ++ toString n ++ " " else ""
  | none => ""

/-- The limit that stands for none, where an offset may not stand alone. -/
def noLimit (d : Dialect) : String :=
  match d with
  | .sqlite => " LIMIT -1"
  | .mysql => " LIMIT 18446744073709551615"
  | _ => ""

def pagingTail (d : Dialect) (limit offset : Option Nat) (ordered : Bool) : String :=
  match d with
  | .sqlserver =>
    match offset with
    | none => ""
    | some m =>
      (if ordered then "" else " ORDER BY (SELECT NULL)") ++ " OFFSET " ++ toString m ++ " ROWS"
        ++ match limit with
          | some n => " FETCH NEXT " ++ toString n ++ " ROWS ONLY"
          | none => ""
  | d =>
    (match limit, offset with
      | some n, _ => " LIMIT " ++ toString n
      | none, some _ => d.noLimit
      | none, none => "")
      ++ match offset with
        | some m => " OFFSET " ++ toString m
        | none => ""

end Dialect

/-- What statements are rendered for: a dialect, and the way a connection quotes a text. -/
structure Target where
  dialect : Dialect
  quote : String → String

def Dialect.target (d : Dialect) : Target := ⟨d, d.quoteLiteral⟩

end TableAccess
