import TableAccess.Proofs.Lexemes

/-!
# Reading a filter

The usual rules for the words of a filter: parentheses first, then AND, then OR, over three truth
values. Atoms are numbered as they are met, and the reader is told a truth value for each number.
A raw text may hold connectives of its own, so it counts as one atom only where parentheses
enclose it and nothing else.
-/
namespace TableAccess

/-- The truth of a condition on a row; a comparison with null is neither true nor false. -/
inductive Truth where
  | no
  | unknown
  | yes
  deriving DecidableEq

namespace Truth

/-- The truth of a conjunction. -/
def and : Truth → Truth → Truth
  | .no, _ => .no
  | .yes, t => t
  | .unknown, .no => .no
  | .unknown, _ => .unknown

/-- The truth of a disjunction. -/
def or : Truth → Truth → Truth
  | .yes, _ => .yes
  | .no, t => t
  | .unknown, .yes => .yes
  | .unknown, _ => .unknown

theorem and_assoc (s t u : Truth) : (s.and t).and u = s.and (t.and u) := by
  cases s <;> cases t <;> cases u <;> rfl

theorem or_assoc (s t u : Truth) : (s.or t).or u = s.or (t.or u) := by
  cases s <;> cases t <;> cases u <;> rfl

@[simp] theorem yes_and (t : Truth) : yes.and t = t := rfl

@[simp] theorem and_yes (t : Truth) : t.and yes = t := by cases t <;> rfl

@[simp] theorem no_or (t : Truth) : no.or t = t := rfl

@[simp] theorem or_no (t : Truth) : t.or no = t := by cases t <;> rfl

end Truth

namespace Sql

/-- What was read behind an opening parenthesis: the conjunctions that an OR has closed, and the
conjunction that is still open. -/
structure Level where
  terms : Truth := .no
  factors : Truth := .yes

namespace Level

/-- The truth of what was read. -/
def value (l : Level) : Truth := l.terms.or l.factors

/-- One more member of the open conjunction. -/
def addFactor (l : Level) (t : Truth) : Level := { l with factors := l.factors.and t }

/-- Closes the open conjunction. -/
def nextTerm (l : Level) : Level := ⟨l.value, .yes⟩

@[simp] theorem value_addFactor_empty (t : Truth) : (addFactor {} t).value = t := rfl

theorem addFactor_addFactor (l : Level) (s t : Truth) :
    (l.addFactor s).addFactor t = l.addFactor (s.and t) := by
  simp [addFactor, Truth.and_assoc]

end Level

/-- Which words may come next. -/
inductive Expected where
  | operand
  | firstOperand
  | operator
  | closing
  deriving DecidableEq

namespace Expected

/-- Whether an atom or an opening parenthesis may come. -/
def isOperand : Expected → Bool
  | .operand | .firstOperand => true
  | _ => false

/-- Whether a closing parenthesis may come. -/
def isEnd : Expected → Bool
  | .operator | .closing => true
  | _ => false

end Expected

/-- A reader in the middle of a filter, with the levels around the one that it reads and the
number of atoms met so far. -/
structure Reader where
  outer : List Level := []
  level : Level := {}
  expected : Expected := .operand
  count : Nat := 0

namespace Reader

/-- The reader behind an operand, in which there were so many atoms. -/
def after (r : Reader) (t : Truth) (atoms : Nat) (expected : Expected) : Reader :=
  { r with level := r.level.addFactor t, expected := expected, count := r.count + atoms }

/-- Reads a word, unless it may not stand there. -/
def step (v : Nat → Truth) (r : Reader) : Lexeme → Option Reader
  | .opening =>
    if r.expected.isOperand then some ⟨r.level :: r.outer, {}, .firstOperand, r.count⟩ else none
  | .atom _ => if r.expected.isOperand then some (r.after (v r.count) 1 .operator) else none
  | .raw _ => if r.expected = .firstOperand then some (r.after (v r.count) 1 .closing) else none
  | .conj => if r.expected = .operator then some { r with expected := .operand } else none
  | .disj =>
    if r.expected = .operator then some { r with level := r.level.nextTerm, expected := .operand }
    else none
  | .closing =>
    if r.expected.isEnd then
      match r.outer with
      | [] => none
      | l :: ls => some ⟨ls, l.addFactor r.level.value, .operator, r.count⟩
    else none

/-- The truth of a filter that ends here. -/
def finish (r : Reader) : Option Truth :=
  if r.expected = .operator ∧ r.outer = [] then some r.level.value else none

/-- Reads words one after another. -/
def run (v : Nat → Truth) (r : Reader) (ts : List Lexeme) : Option Reader := ts.foldlM (step v) r

@[simp] theorem run_nil (v : Nat → Truth) (r : Reader) : run v r [] = some r := rfl

theorem run_cons (v : Nat → Truth) (r : Reader) (t : Lexeme) (ts : List Lexeme) :
    run v r (t :: ts) = (step v r t).bind fun r => run v r ts := rfl

theorem run_append (v : Nat → Truth) (r : Reader) (ts us : List Lexeme) :
    run v r (ts ++ us) = (run v r ts).bind fun r => run v r us := by
  simp [run, List.foldlM_append, Option.bind_eq_bind]

end Reader

/-- The truth of a row of words by the usual rules, if it is a filter. -/
def Lexeme.read (v : Nat → Truth) (ts : List Lexeme) : Option Truth :=
  (Reader.run v {} ts).bind Reader.finish

namespace Reader
variable {v : Nat → Truth}

/-- What is read inside parentheses counts as one operand outside. -/
theorem run_parentheses {r : Reader} (hr : r.expected.isOperand) {ts : List Lexeme} {l : Level}
    {t : Truth} {n : Nat} {e : Expected} (he : e.isEnd) (hl : l.value = t)
    (hts : run v ⟨r.level :: r.outer, {}, .firstOperand, r.count⟩ ts =
      some ⟨r.level :: r.outer, l, e, r.count + n⟩) :
    run v r (.opening :: ts ++ [.closing]) = some (r.after t n .operator) := by
  have hopen : step v r .opening = some ⟨r.level :: r.outer, {}, .firstOperand, r.count⟩ := by
    simp [step, hr]
  rw [List.cons_append, run_cons, hopen, Option.bind_some, run_append, hts, Option.bind_some,
    run_cons]
  simp [step, he, hl, after]

theorem run_atom {r : Reader} (hr : r.expected.isOperand) (content : List Piece) :
    run v r [.atom content] = some (r.after (v r.count) 1 .operator) := by
  simp [run_cons, step, hr]

/-- A raw text in parentheses counts as one atom. -/
theorem run_raw {r : Reader} (hr : r.expected.isOperand) (content : List Piece) :
    run v r [.opening, .raw content, .closing] = some (r.after (v r.count) 1 .operator) := by
  have hread : run v ⟨r.level :: r.outer, {}, .firstOperand, r.count⟩ [.raw content] =
      some ⟨r.level :: r.outer, Level.addFactor {} (v r.count), .closing, r.count + 1⟩ := by
    simp [run_cons, step, after]
  exact run_parentheses hr rfl (Level.value_addFactor_empty _) hread

end Reader

end Sql

end TableAccess
