import TableAccess.Proofs.FlatGroups

/-!
# Counts of selected rows

What a selection counts is settled by its table and its WHERE clause: every other step can be left
out of its making. The selection itself goes on where the count stops, in text and in values, and
the values that it adds are those of its HAVING clause.
-/
namespace TableAccess.Sql

namespace Expr

mutual

/-- The values that an expression binds, from left to right: one for each comparison, and those of
a raw text as far as it has question marks for them. -/
def bound : Expr → List Value
  | .all members => boundOf members
  | .any members => boundOf members
  | .compare _ _ value => [value]
  | .template sql params => params.take (sql.toList.count '?')
  | _ => []

/-- The values that several expressions bind. -/
def boundOf : List Expr → List Value
  | [] => []
  | e :: es => bound e ++ boundOf es

end

theorem boundOf_eq_flatMap (es : List Expr) : boundOf es = es.flatMap bound := by
  induction es with
  | nil => rfl
  | cons e es ih => rw [boundOf, ih, List.flatMap_cons]

/-- Induction on expressions, with the property for every member of a group. -/
theorem memberInduction {P : Expr → Prop} (all : ∀ es, (∀ e ∈ es, P e) → P (.all es))
    (any : ∀ es, (∀ e ∈ es, P e) → P (.any es))
    (compare : ∀ column op value, P (.compare column op value))
    (nullCheck : ∀ column isNull, P (.nullCheck column isNull))
    (inList : ∀ column literals negated, P (.inList column literals negated))
    (template : ∀ sql params, P (.template sql params)) (always : P .always) (never : P .never) :
    ∀ e, P e
  | .all es => all es fun e _ =>
    memberInduction all any compare nullCheck inList template always never e
  | .any es => any es fun e _ =>
    memberInduction all any compare nullCheck inList template always never e
  | .compare column op value => compare column op value
  | .nullCheck column isNull => nullCheck column isNull
  | .inList column literals negated => inList column literals negated
  | .template sql params => template sql params
  | .always => always
  | .never => never

theorem bound_of_isEmpty {e : Expr} (h : e.isEmpty) : e.bound = [] := by
  induction e using memberInduction with
  | all es ih | any es ih =>
    rw [isEmpty, allEmpty_eq, List.all_eq_true] at h
    rw [bound, boundOf_eq_flatMap, List.flatMap_eq_nil_iff]
    exact fun e he => ih e he (h e he)
  | compare | nullCheck | inList | template | always | never => cases h

/-- Question marks without a value are left as they are, and so are values without one. -/
theorem values_templatePieces_eq_take (cs : List Char) (vs : List Value) :
    Piece.values (templatePieces cs vs) = vs.take (cs.count '?') := by
  induction cs generalizing vs with
  | nil => simp [templatePieces, Piece.values]
  | cons c cs ih =>
    cases vs with
    | nil => simpa [templatePieces, Piece.values] using ih []
    | cons v vs =>
      by_cases hc : c = '?'
      · simp [templatePieces, hc, Piece.values, ih]
      · simp [templatePieces, hc, Piece.values, ih]

/-- A group writes the values of its members; the members that are left out have none. -/
theorem values_memberLexemes {es : List Expr} (h : ∀ e ∈ es, Piece.values e.pieces = e.bound) :
    ((memberLexemes es).map Lexeme.allPieces).flatMap Piece.values = es.flatMap bound := by
  induction es with
  | nil => rfl
  | cons e es ih =>
    obtain ⟨he, hes⟩ := List.forall_mem_cons.mp h
    by_cases hempty : e.isEmpty
    · simp [memberLexemes, hempty, ih hes, bound_of_isEmpty hempty]
    · have henclosed := values_enclosed e
      simp only [enclosed] at henclosed
      simp [memberLexemes, hempty, ih hes, henclosed, he]

theorem values_pieces (e : Expr) : Piece.values e.pieces = e.bound := by
  induction e using memberInduction with
  | all es ih | any es ih =>
    rw [pieces, lexemes, Lexeme.allPieces_intercalate, Lexeme.pieces, Piece.values_intercalate,
      values_memberLexemes ih, bound, boundOf_eq_flatMap]
  | template sql params =>
    simp [pieces, lexemes, Lexeme.pieces, values_templatePieces_eq_take, bound]
  | compare | nullCheck | inList | always | never =>
    simp [pieces, lexemes, Lexeme.pieces, Piece.values, bound]

/-- Taking conjunctions apart keeps the values. -/
theorem bound_conjuncts (e : Expr) : e.conjuncts.flatMap bound = e.bound := by
  induction e using conjunctInduction with
  | all es ih =>
    rw [conjuncts, conjunctsOf_eq_flatMap, bound, boundOf_eq_flatMap, List.flatMap_assoc]
    exact List.flatMap_congr ih
  | other e he =>
    rw [conjuncts_of_not_conjunction he]
    by_cases hempty : e.isEmpty
    · simp [hempty, bound_of_isEmpty hempty]
    · simp [hempty]

end Expr

/-- A clause binds the values of the expressions that were added for it. -/
theorem ExprGroup.values_clausePieces {g : ExprGroup} {es : List Expr}
    (h : g.members = es.flatMap Expr.conjuncts) (keyword : String) :
    Piece.values (g.clausePieces keyword) = es.flatMap Expr.bound := by
  have hbound : g.members.flatMap Expr.bound = es.flatMap Expr.bound := by
    rw [h, List.flatMap_assoc]
    exact List.flatMap_congr fun e _ => Expr.bound_conjuncts e
  by_cases hempty : Expr.allEmpty g.members
  · have hall : ∀ e ∈ g.members, e.bound = [] := by
      rw [Expr.allEmpty_eq, List.all_eq_true] at hempty
      exact fun e he => Expr.bound_of_isEmpty (hempty e he)
    rw [clausePieces, if_pos hempty, ← hbound, List.flatMap_eq_nil_iff.mpr hall]
    rfl
  · rw [clausePieces, if_neg hempty, Piece.values, Expr.values_pieces, Expr.bound,
      Expr.boundOf_eq_flatMap, hbound]

namespace Select

/-- Whether a step can change a count: it adds to the WHERE clause or sets the dialect that the
places in it are written for. -/
def decidesRows : Step → Bool
  | .dialect _ | .andWhere _ => true
  | _ => false

/-- Two selections are of the same rows. -/
structure SameRows (s s' : Select) : Prop where
  source : s.source = s'.source
  dialect : s.dialect = s'.dialect
  filter : s.filter = s'.filter

theorem SameRows.count_eq {s s' : Select} (h : SameRows s s') (label : String) :
    s.count label = s'.count label := by
  rw [Select.count_eq, Select.count_eq, countPieces, countPieces, rowsPieces, rowsPieces, h.source,
    h.dialect, h.filter]

/-- The same step on both sides keeps the rows the same. -/
theorem SameRows.apply {s s' : Select} (h : SameRows s s') {step : Step}
    (hstep : decidesRows step) : SameRows (s.apply step) (s'.apply step) := by
  cases step with
  | dialect d => exact ⟨h.source, rfl, h.filter⟩
  | andWhere e => exact ⟨h.source, h.dialect, congrArg (·.and e) h.filter⟩
  | distinct | cols | andHaving | groupBy | orderBy | limit | offset => cases hstep

/-- A step that does not decide about rows may be taken on one side alone. -/
theorem SameRows.apply_left {s s' : Select} (h : SameRows s s') {step : Step}
    (hstep : decidesRows step = false) : SameRows (s.apply step) s' := by
  cases step with
  | dialect | andWhere => cases hstep
  | cols names => cases names <;> exact ⟨h.source, h.dialect, h.filter⟩
  | distinct | andHaving | groupBy | orderBy | limit | offset =>
    exact ⟨h.source, h.dialect, h.filter⟩

theorem SameRows.foldl_filter {s s' : Select} (h : SameRows s s') (steps : List Step) :
    SameRows (steps.foldl Select.apply s) ((steps.filter decidesRows).foldl Select.apply s') := by
  induction steps generalizing s s' with
  | nil => exact h
  | cons step steps ih =>
    by_cases hstep : decidesRows step
    · rw [List.filter_cons_of_pos hstep]
      exact ih (h.apply hstep)
    · rw [List.filter_cons_of_neg hstep]
      exact ih (h.apply_left (by simpa using hstep))

theorem params_count (table : String) (steps : List Step) (label : String) :
    ((ofSteps table steps).count label).params = (steps.filterMap where?).flatMap Expr.bound := by
  rw [count_eq, ← ExprGroup.values_clausePieces (members_filter table steps) " WHERE "]
  simp only [Statement.ofPieces, countPieces, rowsPieces, Piece.values]

/-- A selection binds the values that its count binds, and then those of its HAVING clause. -/
theorem params_build (table : String) (steps : List Step) (label : String) :
    (ofSteps table steps).build.params = ((ofSteps table steps).count label).params
      ++ (steps.filterMap having?).flatMap Expr.bound := by
  rw [params_count, build_eq,
    ← ExprGroup.values_clausePieces (members_filter table steps) " WHERE ",
    ← ExprGroup.values_clausePieces (members_groupFilter table steps) " HAVING "]
  simp [Statement.ofPieces, pieces, rowsPieces, Piece.values, Piece.values_append]

theorem source_ofSteps (table : String) (steps : List Step) :
    (ofSteps table steps).source = table := by
  have hrun : ∀ s : Select, (steps.foldl apply s).source = s.source := by
    induction steps with
    | nil => exact fun _ => rfl
    | cons step steps ih =>
      intro s
      rw [List.foldl_cons, ih]
      cases step with
      | cols names => cases names <;> rfl
      | _ => rfl
  exact hrun (ofTable table)

/-- A count has the rows of its selection: from FROM on it is what follows the projection first. -/
theorem exists_rows (table : String) (steps : List Step) :
    let s := ofSteps table steps
    ∃ rows rest, s.build.sql = "SELECT " ++ s.projection ++ (" FROM " ++ table ++ rows) ++ rest ∧
      ∀ label, (s.count label).sql = "SELECT COUNT(*) AS " ++ label
        ++ (" FROM " ++ table ++ rows) := by
  intro s
  obtain ⟨rows, having', -, -, hbuild, hcount⟩ := writesClauses_ofSteps table steps
  rw [source_ofSteps] at hbuild
  refine ⟨rows, termClause " GROUP BY " s.groups ++ having' ++ termClause " ORDER BY " s.orders
    ++ s.dialect.pagingTail s.limit? s.offset? (!s.orders.isEmpty), ?_, fun label => ?_⟩
  · simpa only [String.append_assoc] using hbuild
  · rw [hcount, source_ofSteps]
    simp only [String.append_assoc]

/-- A count depends on the table and the WHERE clause alone, and the selection goes on where its
count stops: in values with those of HAVING, in text behind the rows. -/
theorem counts_rows_alone (table : String) (steps : List Step) :
    let s := ofSteps table steps
    (∀ label, s.count label = (ofSteps table (steps.filter decidesRows)).count label ∧
      (s.count label).params = (steps.filterMap where?).flatMap Expr.bound ∧
      s.build.params = (s.count label).params ++ (steps.filterMap having?).flatMap Expr.bound) ∧
    ∃ rows rest, s.build.sql = "SELECT " ++ s.projection ++ (" FROM " ++ table ++ rows) ++ rest ∧
      ∀ label, (s.count label).sql = "SELECT COUNT(*) AS " ++ label
        ++ (" FROM " ++ table ++ rows) := by
  intro s
  refine ⟨fun label => ⟨?_, params_count table steps label, params_build table steps label⟩,
    exists_rows table steps⟩
  exact (SameRows.foldl_filter ⟨rfl, rfl, rfl⟩ steps).count_eq label

end Select

end TableAccess.Sql
