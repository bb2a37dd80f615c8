import TableAccess.Proofs.Lowering
import TableAccess.Proofs.Reading

/-!
# The meaning of a filter

A filter holds where all its conditions hold, a group under OR where one of its members does. The
words of an accepted filter, read by the usual rules, have the truth of the filter: `run_enclosed`
for one condition inside a group, `read_lexemes` for a filter. Taking nested conjunctions apart
changes neither the leaves nor the truth.
-/
namespace TableAccess

namespace Condition

mutual

/-- The comparisons and raw texts of a condition, from left to right. -/
def leaves : Condition → List Condition
  | .any xs => leavesOf xs
  | .all xs => leavesOf xs
  | x => [x]

/-- The leaves of several conditions. -/
def leavesOf : List Condition → List Condition
  | [] => []
  | x :: xs => leaves x ++ leavesOf xs

end

mutual

/-- The truth of a condition whose first leaf has number `n`, told the truth of each leaf. -/
def truth (v : Nat → Truth) : Condition → Nat → Truth
  | .any xs, n => truthAny v xs n
  | .all xs, n => truthAll v xs n
  | _, n => v n

/-- Whether all of several conditions hold. -/
def truthAll (v : Nat → Truth) : List Condition → Nat → Truth
  | [], _ => .yes
  | x :: xs, n => (truth v x n).and (truthAll v xs (n + (leaves x).length))

/-- Whether one of several conditions holds. -/
def truthAny (v : Nat → Truth) : List Condition → Nat → Truth
  | [], _ => .no
  | x :: xs, n => (truth v x n).or (truthAny v xs (n + (leaves x).length))

end

mutual

/-- The conditions that a condition adds to a flat conjunction. -/
def spliced : Condition → List Condition
  | .all xs => splicedOf xs
  | x => [x]

/-- The conditions that several conditions add. -/
def splicedOf : List Condition → List Condition
  | [] => []
  | x :: xs => spliced x ++ splicedOf xs

end

theorem leavesOf_append (xs ys : List Condition) :
    leavesOf (xs ++ ys) = leavesOf xs ++ leavesOf ys := by
  induction xs with
  | nil => rfl
  | cons x xs ih => simp [leavesOf, ih, List.append_assoc]

theorem truthAll_append (v : Nat → Truth) (xs ys : List Condition) (n : Nat) :
    truthAll v (xs ++ ys) n =
      (truthAll v xs n).and (truthAll v ys (n + (leavesOf xs).length)) := by
  induction xs generalizing n with
  | nil => simp [truthAll, leavesOf]
  | cons x xs ih =>
    simp [truthAll, leavesOf, ih, Truth.and_assoc, Nat.add_assoc]

theorem leavesOf_spliced (x : Condition) : leavesOf (spliced x) = leaves x := by
  induction x using memberInduction with
  | compare | raw => simp [spliced, leavesOf, leaves]
  | any xs => simp [spliced, leavesOf, leaves]
  | all xs ih =>
    simp only [spliced, leaves]
    induction xs with
    | nil => rfl
    | cons x xs ihs =>
      rw [splicedOf, leavesOf_append, ih x (by simp), leavesOf,
        ihs fun y hy => ih y (by simp [hy])]

theorem leavesOf_splicedOf (xs : List Condition) : leavesOf (splicedOf xs) = leavesOf xs := by
  simpa [spliced, leaves] using leavesOf_spliced (.all xs)

theorem truthAll_spliced (v : Nat → Truth) (x : Condition) (n : Nat) :
    truthAll v (spliced x) n = truth v x n := by
  induction x using memberInduction generalizing n with
  | compare | raw => simp [spliced, truthAll, truth]
  | any xs => simp [spliced, truthAll, truth]
  | all xs ih =>
    simp only [spliced, truth]
    induction xs generalizing n with
    | nil => rfl
    | cons x xs ihs =>
      rw [splicedOf, truthAll_append, ih x (by simp), leavesOf_spliced, truthAll,
        ihs fun y hy => ih y (by simp [hy])]

/-- A conjunction of conjunctions is the conjunction of their members. -/
theorem truthAll_splicedOf (v : Nat → Truth) (xs : List Condition) (n : Nat) :
    truthAll v (splicedOf xs) n = truthAll v xs n := by
  simpa [spliced, truth] using truthAll_spliced v (.all xs) n

variable {quote : String → String} {c : Clause}

/-- Splicing commutes with the step to expressions. -/
theorem LowersTo.spliced {x : Condition} {e : Sql.Expr} (h : LowersTo quote c x e) :
    List.Forall₂ (LowersTo quote c) x.spliced e.conjuncts := by
  induction x using memberInduction generalizing e with
  | compare column op operand =>
    have hg := isGrouped_compare h
    have hc : e.conjuncts = [e] := by
      cases e with
      | all => simp [Sql.Expr.isGrouped] at hg
      | _ => simp [Sql.Expr.conjuncts, h.isEmpty]
    simpa [hc, Condition.spliced] using h
  | raw sql params =>
    obtain ⟨-, -, rfl⟩ := lowersTo_raw.mp h
    simpa [Sql.Expr.conjuncts, Sql.Expr.isEmpty, Condition.spliced] using h
  | any xs =>
    have he := h.isEmpty
    obtain ⟨-, es, -, rfl⟩ := lowersTo_any.mp h
    simpa [Sql.Expr.conjuncts, he, Condition.spliced] using h
  | all xs ih =>
    obtain ⟨-, es, hes, rfl⟩ := lowersTo_all.mp h
    simp only [Condition.spliced, Sql.Expr.conjuncts]
    clear h
    induction hes with
    | nil => exact .nil
    | cons hx _ ihs =>
      exact List.rel_append (ih _ (by simp) hx) (ihs fun y hy => ih y (by simp [hy]))

theorem LowersTo.splicedOf {xs : List Condition} {es : List Sql.Expr}
    (h : List.Forall₂ (LowersTo quote c) xs es) :
    List.Forall₂ (LowersTo quote c) (splicedOf xs) (Sql.Expr.conjunctsOf es) := by
  induction h with
  | nil => exact .nil
  | cons hx _ ih => exact List.rel_append hx.spliced ih

/-- The words count as one operand that has the truth of the condition. -/
def ReadAs (v : Nat → Truth) (x : Condition) (ts : List Sql.Lexeme) : Prop :=
  ∀ r : Sql.Reader, r.expected.isOperand →
    Sql.Reader.run v r ts = some (r.after (x.truth v r.count) x.leaves.length .operator)

/-- Members joined by AND count as one operand. -/
theorem run_conjunction {v : Nat → Truth} {xs : List Condition} {tss : List (List Sql.Lexeme)}
    (hne : xs ≠ []) (h : List.Forall₂ (ReadAs v) xs tss) {r : Sql.Reader}
    (hr : r.expected.isOperand) :
    Sql.Reader.run v r ([.conj].intercalate tss) =
      some (r.after (truthAll v xs r.count) (leavesOf xs).length .operator) := by
  induction h generalizing r with
  | nil => exact absurd rfl hne
  | @cons x ts xs tss hx hxs ih =>
    cases hxs with
    | nil => simp [hx r hr, truthAll, leavesOf]
    | cons hy hys =>
      rw [List.intercalate_cons_cons, Sql.Reader.run_append, Sql.Reader.run_append, hx r hr]
      simp only [Option.bind_some, Sql.Reader.run_cons, Sql.Reader.step, Sql.Reader.after,
        if_true, Sql.Reader.run_nil]
      rw [ih (by simp) rfl]
      simp [Sql.Reader.after, Sql.Level.addFactor_addFactor, truthAll, leavesOf, Nat.add_assoc]

/-- Members joined by OR, read from a level without open factors, leave the level with their
disjunction. -/
theorem run_disjunction {v : Nat → Truth} {xs : List Condition} {tss : List (List Sql.Lexeme)}
    (hne : xs ≠ []) (h : List.Forall₂ (ReadAs v) xs tss) {r : Sql.Reader}
    (hr : r.expected.isOperand) (hf : r.level.factors = .yes) :
    ∃ l : Sql.Level, l.value = r.level.terms.or (truthAny v xs r.count) ∧
      Sql.Reader.run v r ([.disj].intercalate tss) =
        some ⟨r.outer, l, .operator, r.count + (leavesOf xs).length⟩ := by
  induction h generalizing r with
  | nil => exact absurd rfl hne
  | @cons x ts xs tss hx hxs ih =>
    have hvalue : (r.level.addFactor (x.truth v r.count)).value =
        r.level.terms.or (x.truth v r.count) := by
      simp [Sql.Level.addFactor, Sql.Level.value, hf]
    cases hxs with
    | nil =>
      refine ⟨r.level.addFactor (x.truth v r.count), ?_, ?_⟩
      · simp [hvalue, truthAny]
      · simp [hx r hr, leavesOf, Sql.Reader.after]
    | cons hy hys =>
      obtain ⟨l, hl, hrun⟩ := ih (r := ⟨r.outer,
        (r.level.addFactor (x.truth v r.count)).nextTerm, .operand,
        r.count + x.leaves.length⟩) (by simp) rfl rfl
      refine ⟨l, ?_, ?_⟩
      · rw [hl]
        simp [Sql.Level.nextTerm, hvalue, truthAny, Truth.or_assoc]
      · rw [List.intercalate_cons_cons, Sql.Reader.run_append, Sql.Reader.run_append, hx r hr]
        simp only [Option.bind_some, Sql.Reader.run_cons, Sql.Reader.step, Sql.Reader.after,
          if_true, Sql.Reader.run_nil]
        rw [hrun]
        simp [leavesOf, Nat.add_assoc]

theorem memberLexemes_of_lowersTo {xs : List Condition} {es : List Sql.Expr}
    (h : List.Forall₂ (LowersTo quote c) xs es) :
    Sql.Expr.memberLexemes es = es.map Sql.Expr.enclosed := by
  induction h with
  | nil => rfl
  | cons hx _ ih => simp [Sql.Expr.memberLexemes, hx.isEmpty, ih, Sql.Expr.enclosed]

/-- An expression without members is one atom. -/
theorem lexemes_of_isGrouped {e : Sql.Expr} (h : e.isGrouped = false) :
    e.lexemes = [.atom e.pieces] := by
  cases e with
  | all | any | template => simp [Sql.Expr.isGrouped] at h
  | compare | nullCheck | inList | always | never =>
    simp [Sql.Expr.pieces, Sql.Expr.lexemes, Sql.Lexeme.pieces]

theorem readAs_of_lowersTo {xs : List Condition} {es : List Sql.Expr} {v : Nat → Truth}
    (h : List.Forall₂ (LowersTo quote c) xs es)
    (hx : ∀ x ∈ xs, ∀ e, LowersTo quote c x e → ReadAs v x e.enclosed) :
    List.Forall₂ (ReadAs v) xs (es.map Sql.Expr.enclosed) := by
  induction h with
  | nil => exact .nil
  | @cons x e xs es he _ ih =>
    exact .cons (hx x (by simp) e he) (ih fun y hy => hx y (by simp [hy]))

/-- The words of an accepted condition inside a group count as one operand with the truth of the
condition. -/
theorem run_enclosed (v : Nat → Truth) {x : Condition} {e : Sql.Expr}
    (h : LowersTo quote c x e) : ReadAs v x e.enclosed := by
  induction x using memberInduction generalizing e with
  | compare column op operand =>
    intro r hr
    have hg := isGrouped_compare h
    simp only [Sql.Expr.enclosed, Sql.Expr.enclose, hg, lexemes_of_isGrouped hg]
    exact Sql.Reader.run_atom hr e.pieces
  | raw sql params =>
    intro r hr
    obtain ⟨-, -, rfl⟩ := lowersTo_raw.mp h
    exact Sql.Reader.run_raw hr _
  | any xs ih =>
    intro r hr
    obtain ⟨hne, es, hes, rfl⟩ := lowersTo_any.mp h
    have hmembers := readAs_of_lowersTo (v := v) hes fun x hx e he => ih x hx he
    obtain ⟨l, hl, hrun⟩ := run_disjunction hne hmembers
      (r := ⟨r.level :: r.outer, {}, .firstOperand, r.count⟩) rfl rfl
    simp only [Sql.Expr.enclosed, Sql.Expr.enclose, Sql.Expr.isGrouped, if_true,
      Sql.Expr.lexemes, memberLexemes_of_lowersTo hes]
    exact Sql.Reader.run_parentheses hr rfl hl hrun
  | all xs ih =>
    intro r hr
    obtain ⟨hne, es, hes, rfl⟩ := lowersTo_all.mp h
    have hmembers := readAs_of_lowersTo (v := v) hes fun x hx e he => ih x hx he
    have hrun := run_conjunction hne hmembers
      (r := ⟨r.level :: r.outer, {}, .firstOperand, r.count⟩) rfl
    simp only [Sql.Expr.enclosed, Sql.Expr.enclose, Sql.Expr.isGrouped, if_true,
      Sql.Expr.lexemes, memberLexemes_of_lowersTo hes]
    exact Sql.Reader.run_parentheses hr rfl (Sql.Level.value_addFactor_empty _) hrun

/-- Whether a condition is no group. -/
def isLeaf : Condition → Bool
  | .any _ | .all _ => false
  | _ => true

/-- The text of a leaf is that of its own expression. -/
def WrittenAs (quote : String → String) (c : Clause) (x : Condition) (ps : List Sql.Piece) :
    Prop :=
  x.isLeaf ∧ ∃ e, LowersTo quote c x e ∧ e.pieces = ps

theorem writtenAs_of_lowersTo {xs : List Condition} {es : List Sql.Expr}
    (h : List.Forall₂ (LowersTo quote c) xs es)
    (hx : ∀ x ∈ xs, ∀ e, LowersTo quote c x e →
      List.Forall₂ (WrittenAs quote c) x.leaves (Sql.Lexeme.contents e.enclosed)) :
    List.Forall₂ (WrittenAs quote c) (leavesOf xs)
      ((es.map Sql.Expr.enclosed).flatMap Sql.Lexeme.contents) := by
  induction h with
  | nil => exact .nil
  | @cons x e xs es he _ ih =>
    exact List.rel_append (hx x (by simp) e he) (ih fun y hy => hx y (by simp [hy]))

/-- The atoms and raw texts of an accepted condition are its leaves, each once and in order. -/
theorem contents_enclosed {x : Condition} {e : Sql.Expr} (h : LowersTo quote c x e) :
    List.Forall₂ (WrittenAs quote c) x.leaves (Sql.Lexeme.contents e.enclosed) := by
  induction x using memberInduction generalizing e with
  | compare column op operand =>
    have hg := isGrouped_compare h
    simp only [Sql.Expr.enclosed, Sql.Expr.enclose, hg, lexemes_of_isGrouped hg]
    exact .cons ⟨rfl, e, h, rfl⟩ .nil
  | raw sql params =>
    obtain ⟨-, -, rfl⟩ := lowersTo_raw.mp h
    refine .cons ⟨rfl, _, h, ?_⟩ .nil
    simp [Sql.Expr.pieces, Sql.Expr.lexemes, Sql.Lexeme.pieces]
  | any xs ih =>
    obtain ⟨-, es, hes, rfl⟩ := lowersTo_any.mp h
    have hmembers := writtenAs_of_lowersTo hes fun x hx e he => ih x hx he
    simp only [Sql.Expr.enclosed, Sql.Expr.enclose, Sql.Expr.isGrouped, if_true,
      Sql.Lexeme.contents_parentheses, Sql.Expr.lexemes, memberLexemes_of_lowersTo hes, leaves]
    rwa [Sql.Lexeme.contents_intercalate rfl]
  | all xs ih =>
    obtain ⟨-, es, hes, rfl⟩ := lowersTo_all.mp h
    have hmembers := writtenAs_of_lowersTo hes fun x hx e he => ih x hx he
    simp only [Sql.Expr.enclosed, Sql.Expr.enclose, Sql.Expr.isGrouped, if_true,
      Sql.Lexeme.contents_parentheses, Sql.Expr.lexemes, memberLexemes_of_lowersTo hes, leaves]
    rwa [Sql.Lexeme.contents_intercalate rfl]

end Condition

namespace Filter

/-- The leaves of a filter, from left to right. -/
def leaves (f : Filter) : List Condition := Condition.leavesOf f.conditions

/-- The truth of a filter, told the truth of each leaf by its number. -/
def truth (v : Nat → Truth) (f : Filter) : Truth := Condition.truthAll v f.conditions 0

/-- The filter with nested conjunctions taken apart. -/
def spliced (f : Filter) : Filter := ⟨Condition.splicedOf f.conditions⟩

@[simp] theorem leaves_spliced (f : Filter) : f.spliced.leaves = f.leaves :=
  Condition.leavesOf_splicedOf f.conditions

@[simp] theorem truth_spliced (v : Nat → Truth) (f : Filter) : f.spliced.truth v = f.truth v :=
  Condition.truthAll_splicedOf v f.conditions 0

variable {quote : String → String} {c : Clause} {f : Filter} {es : List Sql.Expr}

/-- The words of an accepted filter that is not empty have the truth of the filter. -/
theorem read_lexemes (h : List.Forall₂ (Condition.LowersTo quote c) f.conditions es)
    (hne : f.conditions ≠ []) (v : Nat → Truth) :
    Sql.Lexeme.read v (Sql.Expr.all es).lexemes = some (f.truth v) := by
  have hmembers := Condition.readAs_of_lowersTo (v := v) h fun x _ e he =>
    Condition.run_enclosed v he
  have hrun := Condition.run_conjunction hne hmembers (r := {}) rfl
  rw [Sql.Lexeme.read, Sql.Expr.lexemes, Condition.memberLexemes_of_lowersTo h, hrun]
  simp [Sql.Reader.finish, Sql.Reader.after, truth]

/-- The atoms and raw texts of an accepted filter are its leaves. -/
theorem contents_lexemes (h : List.Forall₂ (Condition.LowersTo quote c) f.conditions es) :
    List.Forall₂ (Condition.WrittenAs quote c) f.leaves
      (Sql.Lexeme.contents (Sql.Expr.all es).lexemes) := by
  have hmembers := Condition.writtenAs_of_lowersTo h fun x _ e he =>
    Condition.contents_enclosed he
  rwa [Sql.Expr.lexemes, Condition.memberLexemes_of_lowersTo h,
    Sql.Lexeme.contents_intercalate rfl]

end Filter

end TableAccess
