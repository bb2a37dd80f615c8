import TableAccess.Proofs.Clauses

/-!
# Texts that no bound value can change

Two filters of one shape differ in single values and in the parameters of raw texts. A value at a
place leaves no trace in the text, so both are written alike, except where a single value stands
under IN or NOT IN: there it is written as the list of it.
-/
namespace TableAccess

namespace Sql

def Piece.text? : Piece → Option String
  | .text s => some s
  | .bound _ => none

/-- Pieces without the values at their places. -/
def Piece.outline (ps : List Piece) : List (Option String) := ps.map text?

namespace Piece

theorem outline_append (ps qs : List Piece) : outline (ps ++ qs) = outline ps ++ outline qs :=
  List.map_append

theorem outline_intercalate (sep : String) (pss : List (List Piece)) :
    outline ([.text sep].intercalate pss) = [some sep].intercalate (pss.map outline) := by
  induction pss with
  | nil => rfl
  | cons ps rest ih =>
    cases rest with
    | nil => simp
    | cons qs rest =>
      rw [List.intercalate_cons_cons, outline_append, outline_append, ih]
      simp [List.intercalate_cons_cons, outline, text?]

theorem spell_congr {ps qs : List Piece} (h : outline ps = outline qs) (d : Dialect) (n : Nat) :
    spell d n ps = spell d n qs := by
  induction ps generalizing qs n with
  | nil =>
    have hqs : qs = [] := by simpa [outline] using h.symm
    rw [hqs]
  | cons p ps ih =>
    cases qs with
    | nil => simp [outline] at h
    | cons q qs =>
      obtain ⟨hpq, hrest⟩ := List.cons.inj h
      have hspell := fun n => ih hrest n
      cases p <;> cases q <;> simp_all [text?, spell]

theorem length_values_congr {ps qs : List Piece} (h : outline ps = outline qs) :
    (values ps).length = (values qs).length := by
  induction ps generalizing qs with
  | nil =>
    have hqs : qs = [] := by simpa [outline] using h.symm
    rw [hqs]
  | cons p ps ih =>
    cases qs with
    | nil => simp [outline] at h
    | cons q qs =>
      obtain ⟨hpq, hrest⟩ := List.cons.inj h
      have hlength := ih hrest
      cases p <;> cases q <;> simp_all [text?, values]

end Piece

namespace Expr

/-- Two expressions that are written alike, alone and in a group. -/
structure WrittenAlike (e f : Expr) : Prop where
  isGrouped_eq : e.isGrouped = f.isGrouped
  isEmpty_eq : e.isEmpty = f.isEmpty
  outline_eq : Piece.outline e.pieces = Piece.outline f.pieces

theorem writtenAlike_refl (e : Expr) : WrittenAlike e e := ⟨rfl, rfl, rfl⟩

theorem outline_templatePieces {vs ws : List Value} (h : vs.length = ws.length)
    (cs : List Char) :
    Piece.outline (templatePieces cs vs) = Piece.outline (templatePieces cs ws) := by
  induction cs generalizing vs ws with
  | nil => rfl
  | cons c cs ih =>
    cases vs with
    | nil =>
      have hws : ws = [] := List.eq_nil_of_length_eq_zero h.symm
      rw [hws]
    | cons v vs =>
      cases ws with
      | nil => simp at h
      | cons w ws =>
        have hlength : vs.length = ws.length := by simpa using h
        by_cases hc : c = '?'
        · simpa [templatePieces, hc, Piece.outline, Piece.text?] using ih hlength
        · simpa [templatePieces, hc, Piece.outline, Piece.text?] using ih h

theorem WrittenAlike.enclosed {e f : Expr} (h : WrittenAlike e f) :
    Piece.outline (Lexeme.allPieces e.enclosed) = Piece.outline (Lexeme.allPieces f.enclosed) := by
  have hpieces := h.outline_eq
  simp only [pieces] at hpieces
  simp only [Expr.enclosed, enclose, h.isGrouped_eq]
  split_ifs
  · simp [Piece.outline_append, hpieces]
  · exact hpieces

variable {es fs : List Expr}

theorem outline_memberLexemes (h : List.Forall₂ WrittenAlike es fs) :
    ((memberLexemes es).map Lexeme.allPieces).map Piece.outline =
      ((memberLexemes fs).map Lexeme.allPieces).map Piece.outline := by
  induction h with
  | nil => rfl
  | cons hef _ ih =>
    have henclosed := hef.enclosed
    simp only [Expr.enclosed] at henclosed
    simp only [memberLexemes, hef.isEmpty_eq]
    split_ifs
    · exact ih
    · simp only [List.map_cons, henclosed, ih]

theorem allEmpty_congr (h : List.Forall₂ WrittenAlike es fs) : allEmpty es = allEmpty fs := by
  induction h with
  | nil => rfl
  | cons hef _ ih => simp only [allEmpty, hef.isEmpty_eq, ih]

theorem writtenAlike_any (h : List.Forall₂ WrittenAlike es fs) :
    WrittenAlike (any es) (any fs) := by
  refine ⟨rfl, allEmpty_congr h, ?_⟩
  simp only [pieces, lexemes, Lexeme.allPieces_intercalate, Lexeme.pieces,
    Piece.outline_intercalate, outline_memberLexemes h]

theorem writtenAlike_all (h : List.Forall₂ WrittenAlike es fs) :
    WrittenAlike (all es) (all fs) := by
  refine ⟨rfl, allEmpty_congr h, ?_⟩
  simp only [pieces, lexemes, Lexeme.allPieces_intercalate, Lexeme.pieces,
    Piece.outline_intercalate, outline_memberLexemes h]

end Expr

end Sql

namespace Condition

/-- Two conditions of one shape, with the same lists. They may differ in parameters of raw texts
and in single values, but for single values under an operator that is `fixed`. -/
inductive Alike (fixed : Option String → Bool) : Condition → Condition → Prop
  | scalar (column : String) (op : Option String) {v w : Value} (h : fixed op = true → v = w) :
    Alike fixed (.compare column op (.scalar v)) (.compare column op (.scalar w))
  | list (column : String) (op : Option String) (vs : List Value) :
    Alike fixed (.compare column op (.list vs)) (.compare column op (.list vs))
  | raw (sql : String) (vs ws : List Value) : Alike fixed (.raw sql vs) (.raw sql ws)
  | any {xs ys : List Condition} (h : List.Forall₂ (Alike fixed) xs ys) :
    Alike fixed (.any xs) (.any ys)
  | all {xs ys : List Condition} (h : List.Forall₂ (Alike fixed) xs ys) :
    Alike fixed (.all xs) (.all ys)

/-- Whether a single value behind an operator is written as the list of it. -/
def listsScalar (op : Option String) : Bool :=
  (op.bind Operator.parse?).any Operator.isMembership

variable {quote : String → String} {c : Clause}

theorem isMembership_of_resolveOperator {column : String} {v : Value} {op : Option String}
    {o : Operator} (h : resolveOperator c column (.scalar v) op = .ok o) :
    o.isMembership = listsScalar op := by
  have ho := operator?_of_resolveOperator h
  cases op with
  | none =>
    cases ho
    rfl
  | some s =>
    have hparse : Operator.parse? s = some o := ho
    simp [listsScalar, hparse]

/-- A single value that is not under IN or NOT IN is bound, or it is the null of a null check. -/
theorem writtenAlike_scalar {column : String} {op : Option String} {v w : Value} {e f : Sql.Expr}
    (h : listsScalar op = true → v = w) (he : LowersTo quote c (.compare column op (.scalar v)) e)
    (hf : LowersTo quote c (.compare column op (.scalar w)) f) : e.WrittenAlike f := by
  obtain ⟨-, o, ho, hv⟩ := lowersTo_compare.mp he
  obtain ⟨-, o', ho', hw⟩ := lowersTo_compare.mp hf
  have hsame : o = o' := by
    have hresolved := (operator?_of_resolveOperator ho).symm.trans
      (show operator? op (.scalar v) = some o' from operator?_of_resolveOperator ho')
    exact Option.some.inj hresolved
  subst hsame
  cases hmember : o.isMembership with
  | true =>
    have hvw := h (isMembership_of_resolveOperator ho ▸ hmember)
    subst hvw
    have hef : e = f := Except.ok.inj (hv.symm.trans hw)
    exact hef ▸ e.writtenAlike_refl
  | false =>
    simp only [lowerOperand, hmember, Bool.false_eq_true, if_false] at hv hw
    split_ifs at hv hw
    · cases hv
      cases hw
      exact Sql.Expr.writtenAlike_refl _
    · cases hv
      cases hw
      exact ⟨rfl, rfl, rfl⟩

theorem forall₂_writtenAlike {xs ys : List Condition} {es fs : List Sql.Expr}
    (h : ∀ x ∈ xs, ∀ {y e f}, Alike listsScalar x y → LowersTo quote c x e →
      LowersTo quote c y f → e.WrittenAlike f)
    (hxy : List.Forall₂ (Alike listsScalar) xs ys) (hes : List.Forall₂ (LowersTo quote c) xs es)
    (hfs : List.Forall₂ (LowersTo quote c) ys fs) : List.Forall₂ Sql.Expr.WrittenAlike es fs := by
  induction hxy generalizing es fs with
  | nil =>
    cases hes
    cases hfs
    exact .nil
  | cons halike _ ih =>
    obtain ⟨e, es', he, hes', rfl⟩ := List.forall₂_cons_left_iff.mp hes
    obtain ⟨f, fs', hf, hfs', rfl⟩ := List.forall₂_cons_left_iff.mp hfs
    exact .cons (h _ (by simp) halike he hf) (ih (fun x hx => h x (by simp [hx])) hes' hfs')

theorem Alike.writtenAlike {x y : Condition} {e f : Sql.Expr} (h : Alike listsScalar x y)
    (he : LowersTo quote c x e) (hf : LowersTo quote c y f) : e.WrittenAlike f := by
  -- By induction on one of the two; the other one has the same constructor and as many members.
  induction x using memberInduction generalizing y e f with
  | compare column op operand =>
    cases h with
    | scalar _ _ hvw => exact writtenAlike_scalar hvw he hf
    | list =>
      have hef : e = f := Except.ok.inj (he.symm.trans hf)
      exact hef ▸ e.writtenAlike_refl
  | raw sql vs =>
    cases h with
    | raw _ _ ws =>
      obtain ⟨-, hvs, rfl⟩ := lowersTo_raw.mp he
      obtain ⟨-, hws, rfl⟩ := lowersTo_raw.mp hf
      refine ⟨rfl, rfl, ?_⟩
      simpa [Sql.Expr.pieces, Sql.Expr.lexemes, Sql.Lexeme.pieces] using
        Sql.Expr.outline_templatePieces (hvs.symm.trans hws) sql.toList
  | any xs ih =>
    cases h with
    | any hxy =>
      obtain ⟨-, es, hes, rfl⟩ := lowersTo_any.mp he
      obtain ⟨-, fs, hfs, rfl⟩ := lowersTo_any.mp hf
      exact Sql.Expr.writtenAlike_any (forall₂_writtenAlike ih hxy hes hfs)
  | all xs ih =>
    cases h with
    | all hxy =>
      obtain ⟨-, es, hes, rfl⟩ := lowersTo_all.mp he
      obtain ⟨-, fs, hfs, rfl⟩ := lowersTo_all.mp hf
      exact Sql.Expr.writtenAlike_all (forall₂_writtenAlike ih hxy hes hfs)

end Condition

namespace Filter

def Alike (fixed : Option String → Bool) (f g : Filter) : Prop :=
  List.Forall₂ (Condition.Alike fixed) f.conditions g.conditions

theorem Alike.writtenAlike {quote : String → String} {c : Clause} {f g : Filter}
    {e e' : Sql.Expr} (h : f.Alike Condition.listsScalar g) (hf : f.toExpr quote c = .ok e)
    (hg : g.toExpr quote c = .ok e') : e.WrittenAlike e' := by
  obtain ⟨es, hes, rfl⟩ := toExpr_eq_ok.mp hf
  obtain ⟨fs, hfs, rfl⟩ := toExpr_eq_ok.mp hg
  have hmembers := Condition.forall₂_writtenAlike
    (fun _ _ _ _ _ halike he hf => halike.writtenAlike he hf) h hes hfs
  exact Sql.Expr.writtenAlike_all hmembers

/-- No bound value influences the text: filters of one shape that are accepted compile to one text
with equally many values, provided that they agree on single values under IN and NOT IN. -/
theorem compile_text_eq (t : Target) (c : Clause) (f g : Filter) {sql sql' : String}
    {vs vs' : List Value} (h : f.Alike Condition.listsScalar g)
    (hf : f.compile t c = .ok (sql, vs)) (hg : g.compile t c = .ok (sql', vs')) :
    sql = sql' ∧ vs.length = vs'.length := by
  obtain ⟨e, he, rfl, rfl⟩ := compile_eq_ok.mp hf
  obtain ⟨e', he', rfl, rfl⟩ := compile_eq_ok.mp hg
  have halike := h.writtenAlike he he'
  exact ⟨Sql.Piece.spell_congr halike.outline_eq t.dialect 0,
    Sql.Piece.length_values_congr halike.outline_eq⟩

/-- A filter of the shape of `nested`, with texts for most of its single values. -/
def nestedTexts : Filter :=
  ⟨[.eq "active" (.text "' OR 1=1"),
    .any [.cmp "age" ">=" .null, .all [.isNull "owner", .raw "len(name) = ?" [.text "? OR ?"]]],
    .all [.isIn "kind" [.int 1, .null], .any [.cmp "kind" "<" (.text "9 --")]]]⟩

theorem alike_nested : nested.Alike Condition.listsScalar nestedTexts :=
  .cons (.scalar _ _ (by decide))
    (.cons (.any (.cons (.scalar _ _ (by decide))
        (.cons (.all (.cons (.scalar _ _ (by decide)) (.cons (.raw _ _ _) .nil))) .nil)))
      (.cons (.all (.cons (.list _ _ _) (.cons (.any (.cons (.scalar _ _ (by decide)) .nil)) .nil)))
        .nil))

theorem compile_text_eq_nested :
    ∃ sql sql' vs vs',
      nested.compile Dialect.postgres.target .rowFilter = .ok (sql, vs) ∧
        nestedTexts.compile Dialect.postgres.target .rowFilter = .ok (sql', vs') ∧
          vs ≠ vs' ∧ sql = sql' ∧ vs.length = vs'.length :=
  ⟨_, _, _, _, rfl, rfl, by decide,
    compile_text_eq Dialect.postgres.target .rowFilter _ _ alike_nested rfl rfl⟩

/-- The shape alone does not fix the text. -/
theorem not_compile_text_eq_of_shape :
    ¬ ∀ (t : Target) (c : Clause) (f g : Filter) (sql sql' : String) (vs vs' : List Value),
      f.Alike (fun _ => false) g → f.compile t c = .ok (sql, vs) →
        g.compile t c = .ok (sql', vs') → sql = sql' := by
  intro h
  have hsame := h Dialect.postgres.target .rowFilter ⟨[.cmp "a" "IN" (.int 5)]⟩
    ⟨[.cmp "a" "IN" (.int 6)]⟩ "a IN (5)" "a IN (6)" [] [] (.cons (.scalar _ _ (by simp)) .nil)
    rfl rfl
  exact absurd hsame (by decide)

end Filter

end TableAccess
