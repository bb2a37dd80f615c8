import TableAccess.Text.Blank

/-!
# Comparison operators

The operators that a condition may use. A caller may write one in any case and with any blanks
around and between its words.
-/
namespace TableAccess

inductive Operator where
  | eq
  | ne
  | differs
  | lt
  | le
  | gt
  | ge
  | like
  | notLike
  | ilike
  | notIlike
  | is
  | isNot
  | isIn
  | notIn
  deriving DecidableEq

namespace Operator

def sql : Operator → String
  | .eq => "="
  | .ne => "!="
  | .differs => "<>"
  | .lt => "<"
  | .le => "<="
  | .gt => ">"
  | .ge => ">="
  | .like => "LIKE"
  | .notLike => "NOT LIKE"
  | .ilike => "ILIKE"
  | .notIlike => "NOT ILIKE"
  | .is => "IS"
  | .isNot => "IS NOT"
  | .isIn => "IN"
  | .notIn => "NOT IN"

def all : List Operator :=
  [eq, ne, differs, lt, le, gt, ge, like, notLike, ilike, notIlike, is, isNot, isIn, notIn]

/-- The capital of a letter. Beside the ASCII letters, two others have an ASCII capital: the i
without a dot and the long s. Characters whose capital is no single ASCII letter occur in no
operator in either case, and stay. -/
def capital (c : Char) : Char :=
  if 'a' ≤ c ∧ c ≤ 'z' then Char.ofNat (c.toNat - 32)
  else if c.toNat = 0x131 then 'I'
  else if c.toNat = 0x17F then 'S'
  else c

/-- The words of a text in capitals, one space between them. -/
def normalized (s : String) : String :=
  String.ofList ([' '].intercalate ((Text.words s.toList).map (·.map capital)))

def parse? (s : String) : Option Operator := all.find? (·.sql == normalized s)

def isMembership : Operator → Bool
  | .isIn | .notIn => true
  | _ => false

end Operator

end TableAccess
