import TableAccess.Text.Blank

/-!
# Kinds of statements

The kind of a statement is its first keyword. Blanks, comments and opening parentheses in front
of it are skipped; an unfinished comment swallows the rest.
-/
namespace TableAccess

/-- What a statement does. -/
inductive StatementKind where
  | select
  | insert
  | update
  | delete
  | other
  deriving DecidableEq

namespace StatementKind

def name : StatementKind → String
  | .select => "Select"
  | .insert => "Insert"
  | .update => "Update"
  | .delete => "Delete"
  | .other => "Other"

def afterLine : List Char → List Char
  | [] => []
  | c :: cs => if c = '\n' then cs else afterLine cs

def afterBlock : List Char → List Char
  | [] => []
  | c :: cs =>
    match cs with
    | '/' :: rest => if c = '*' then rest else afterBlock cs
    | _ => afterBlock cs

theorem length_afterLine_le (cs : List Char) : (afterLine cs).length ≤ cs.length := by
  induction cs with
  | nil => simp [afterLine]
  | cons c cs ih =>
    rw [afterLine]
    split
    · simp
    · simp only [List.length_cons]
      omega

theorem length_afterBlock_le (cs : List Char) : (afterBlock cs).length ≤ cs.length := by
  fun_induction afterBlock cs with
  | case1 => simp
  | case2 rest => simp; omega
  | case3 c rest hc ih => simp only [List.length_cons] at ih ⊢; omega
  | case4 c cs hcs ih => simp only [List.length_cons]; omega

/-- The text from its first keyword on. A block comment may end with the star that opens it. -/
def skipNoise (cs : List Char) : List Char :=
  match cs with
  | [] => []
  | c :: rest =>
    if Text.isBlank c then skipNoise rest
    else if c = '(' then skipNoise rest
    else
      match rest with
      | d :: more =>
        if c = '-' ∧ d = '-' then skipNoise (afterLine more)
        else if c = '/' ∧ d = '*' then skipNoise (afterBlock (d :: more))
        else cs
      | [] => cs
termination_by cs.length
decreasing_by
  · simp
  · simp
  · have := length_afterLine_le more; simp; omega
  · have := length_afterBlock_le (d :: more); simp at this ⊢; omega

/-- Whether a text begins with a keyword, given in capitals, in any case. -/
def beginsWith (keyword : String) (cs : List Char) : Bool :=
  let letters := keyword.toList
  (cs.take letters.length).map Char.toUpper == letters

def ofSql (sql : String) : StatementKind :=
  let body := skipNoise sql.toList
  if beginsWith "SELECT" body then .select
  else if beginsWith "INSERT" body then .insert
  else if beginsWith "UPDATE" body then .update
  else if beginsWith "DELETE" body then .delete
  else .other

end StatementKind

end TableAccess
