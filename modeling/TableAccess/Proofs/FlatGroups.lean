import TableAccess.Proofs.Structure

/-!
# Flat groups

However filters are nested when they are added to a group, the group holds what is left of them
once conjunctions are taken apart and empty members dropped, in order. A group kept in this way
has text exactly if it has members, so a clause is left out exactly if nothing was asked for, and
no keyword stands in front of an empty text.
-/
namespace TableAccess.Sql

namespace Expr

mutual

/-- The members of a conjunction with those of the conjunctions among them, and any other
expression by itself. -/
def flattened : Expr → List Expr
  | .all members => flattenedOf members
  | e => [e]

/-- The flattened members of several expressions. -/
def flattenedOf : List Expr → List Expr
  | [] => []
  | e :: es => flattened e ++ flattenedOf es

end

/-- Whether an expression is a conjunction. -/
def isConjunction : Expr → Bool
  | .all _ => true
  | _ => false

theorem conjuncts_of_not_conjunction {e : Expr} (h : e.isConjunction = false) :
    e.conjuncts = if e.isEmpty then [] else [e] := by
  cases e with
  | all => cases h
  | _ => rfl

theorem flattened_of_not_conjunction {e : Expr} (h : e.isConjunction = false) :
    e.flattened = [e] := by
  cases e with
  | all => cases h
  | _ => simp [flattened]

theorem conjunctsOf_eq_flatMap (es : List Expr) : conjunctsOf es = es.flatMap conjuncts := by
  induction es with
  | nil => rfl
  | cons e es ih => rw [conjunctsOf, ih, List.flatMap_cons]

theorem flattenedOf_eq_flatMap (es : List Expr) : flattenedOf es = es.flatMap flattened := by
  induction es with
  | nil => rfl
  | cons e es ih => rw [flattenedOf, ih, List.flatMap_cons]

/-- Induction on expressions that looks into conjunctions only. -/
theorem conjunctInduction {P : Expr → Prop} (all : ∀ es, (∀ e ∈ es, P e) → P (.all es))
    (other : ∀ e, e.isConjunction = false → P e) : ∀ e, P e
  | .all es => all es fun e _ => conjunctInduction all other e
  | .any _ | .compare _ _ _ | .nullCheck _ _ | .inList _ _ _ | .template _ _ | .always | .never =>
    other _ rfl

/-- What an expression adds to a group: its flattened members that are not empty. -/
theorem conjuncts_eq_filter (e : Expr) :
    e.conjuncts = e.flattened.filter fun x => !x.isEmpty := by
  induction e using conjunctInduction with
  | all es ih =>
    rw [conjuncts, flattened, conjunctsOf_eq_flatMap, flattenedOf_eq_flatMap, List.filter_flatMap]
    exact List.flatMap_congr ih
  | other e he =>
    rw [conjuncts_of_not_conjunction he, flattened_of_not_conjunction he]
    cases h : e.isEmpty <;> simp [h]

theorem isConjunction_of_mem_flattened {e x : Expr} (h : x ∈ e.flattened) :
    x.isConjunction = false := by
  induction e using conjunctInduction with
  | all es ih =>
    rw [flattened, flattenedOf_eq_flatMap] at h
    obtain ⟨e, he, hx⟩ := List.mem_flatMap.mp h
    exact ih e he hx
  | other e he =>
    rw [flattened_of_not_conjunction he, List.mem_singleton] at h
    exact h ▸ he

/-- An expression adds nothing exactly if it is empty. -/
theorem conjuncts_eq_nil {e : Expr} : e.conjuncts = [] ↔ e.isEmpty := by
  induction e using conjunctInduction with
  | all es ih =>
    rw [conjuncts, conjunctsOf_eq_flatMap, isEmpty, allEmpty_eq, List.flatMap_eq_nil_iff,
      List.all_eq_true]
    exact forall₂_congr ih
  | other e he =>
    rw [conjuncts_of_not_conjunction he]
    cases h : e.isEmpty <;> simp

end Expr

namespace ExprGroup

/-- No member is a conjunction, and none is empty. -/
def IsFlat (g : ExprGroup) : Prop :=
  ∀ e ∈ g.members, e.isConjunction = false ∧ e.isEmpty = false

theorem isFlat_empty : empty.IsFlat := fun _ h => nomatch h

theorem IsFlat.and {g : ExprGroup} (h : g.IsFlat) (e : Expr) : (g.and e).IsFlat := by
  intro x hx
  rcases List.mem_append.mp hx with hx | hx
  · exact h x hx
  · rw [Expr.conjuncts_eq_filter] at hx
    obtain ⟨hmem, hempty⟩ := List.mem_filter.mp hx
    exact ⟨Expr.isConjunction_of_mem_flattened hmem, by simpa using hempty⟩

/-- The group to which expressions are added one after another. -/
def ofExprs (es : List Expr) : ExprGroup := es.foldl ExprGroup.and empty

theorem isFlat_ofExprs (es : List Expr) : (ofExprs es).IsFlat := by
  have hrun : ∀ g : ExprGroup, g.IsFlat → (es.foldl ExprGroup.and g).IsFlat := by
    induction es with
    | nil => exact fun _ hg => hg
    | cons e es ih => exact fun g hg => ih _ (hg.and e)
  exact hrun empty isFlat_empty

theorem members_ofExprs (es : List Expr) : (ofExprs es).members = es.flatMap Expr.conjuncts := by
  rw [ofExprs, members_foldl_and]
  rfl

theorem eq_ofExprs {g : ExprGroup} {es : List Expr} (h : g.members = es.flatMap Expr.conjuncts) :
    g = ofExprs es := by
  rw [← members_ofExprs] at h
  cases g
  exact congrArg ExprGroup.mk h

/-- One by one or as one conjunction, expressions add the same to a group. -/
theorem foldl_and_eq_and_all (g : ExprGroup) (es : List Expr) :
    es.foldl ExprGroup.and g = g.and (.all es) := by
  have h := members_foldl_and g es
  rw [← Expr.conjunctsOf_eq_flatMap] at h
  exact congrArg ExprGroup.mk h

theorem isEmpty_ofExprs {es : List Expr} : (ofExprs es).isEmpty ↔ ∀ e ∈ es, e.isEmpty := by
  rw [isEmpty, List.isEmpty_iff, members_ofExprs, List.flatMap_eq_nil_iff]
  exact forall₂_congr fun _ _ => Expr.conjuncts_eq_nil

/-- In a flat group emptiness can be seen without looking into the members. -/
theorem IsFlat.allEmpty_members {g : ExprGroup} (h : g.IsFlat) :
    Expr.allEmpty g.members ↔ g.isEmpty := by
  rw [Expr.allEmpty_eq, isEmpty, List.isEmpty_iff]
  cases hg : g.members with
  | nil => simp
  | cons e es =>
    have he := (h e (by simp [hg])).2
    simp [he]

/-- A flat group has text exactly if it has members. -/
theorem IsFlat.render_eq_empty {g : ExprGroup} (h : g.IsFlat) (d : Dialect) (ps : ParamList) :
    (g.render d ps).1 = "" ↔ g.isEmpty := by
  rw [render, Expr.render_eq, Expr.spell_all_eq_empty, h.allEmpty_members]

/-- The clause of a group, behind the values `ps`: there is none if all that was added to the
group is empty, else the text of the group stands behind the keyword. -/
inductive ClauseOf (d : Dialect) (keyword : String) (es : List Expr) (ps : ParamList) :
    String → Prop
  | absent (hempty : ∀ e ∈ es, e.isEmpty) : ClauseOf d keyword es ps ""
  | present {text : String} (hsome : ∃ e ∈ es, e.isEmpty = false) (hne : text ≠ "")
      (htext : ((ofExprs es).render d ps).1 = text) : ClauseOf d keyword es ps (keyword ++ text)

theorem clauseOf_clausePieces (d : Dialect) (keyword : String) (es : List Expr) (ps : ParamList) :
    ClauseOf d keyword es ps (Piece.spell d ps.size ((ofExprs es).clausePieces keyword)) := by
  have hflat := isFlat_ofExprs es
  have htext : ((ofExprs es).render d ps).1 =
      Piece.spell d ps.size (Expr.all (ofExprs es).members).pieces := by
    rw [render, Expr.render_eq]
  by_cases hempty : (ofExprs es).isEmpty
  · rw [clausePieces, if_pos (hflat.allEmpty_members.mpr hempty)]
    exact .absent (isEmpty_ofExprs.mp hempty)
  · rw [clausePieces, if_neg (mt hflat.allEmpty_members.mp hempty)]
    have hne := mt (hflat.render_eq_empty d ps).mp hempty
    exact .present (by simpa [isEmpty_ofExprs] using hempty) (htext ▸ hne) htext

end ExprGroup

/-- A selection and its counts write the WHERE and HAVING clauses of expressions. -/
def Select.WritesClauses (wheres havings : List Expr) (s : Select) : Prop :=
  ∃ where' having',
    ExprGroup.ClauseOf s.dialect " WHERE " wheres .empty where' ∧
    ExprGroup.ClauseOf s.dialect " HAVING " havings
      (s.filter.renderClause s.dialect " WHERE " .empty).2 having' ∧
    s.build.sql = "SELECT " ++ s.projection ++ " FROM " ++ s.source ++ where'
      ++ termClause " GROUP BY " s.groups ++ having' ++ termClause " ORDER BY " s.orders
      ++ s.dialect.pagingTail s.limit? s.offset? (!s.orders.isEmpty) ∧
    ∀ label, (s.count label).sql = "SELECT COUNT(*) AS " ++ label ++ " FROM " ++ s.source
      ++ where'

/-- An update writes the WHERE clause of expressions behind what it sets, if it sets anything. -/
def Update.WritesClause (wheres : List Expr) (u : Update) : Prop :=
  ∃ where',
    ExprGroup.ClauseOf u.dialect " WHERE " wheres
      (ParamList.bindAll u.dialect (u.entries.map (·.2)) .empty).2 where' ∧
    u.build.map (·.sql) = if u.entries = [] then .error (emptyPayload u.table)
      else .ok (Piece.spell u.dialect 0 u.setPieces ++ where')

/-- A deletion writes the WHERE clause of expressions behind its table. -/
def Delete.WritesClause (wheres : List Expr) (s : Delete) : Prop :=
  ∃ where', ExprGroup.ClauseOf s.dialect " WHERE " wheres .empty where' ∧
    s.build.sql = "DELETE FROM " ++ s.table ++ where'

theorem Select.writesClauses_ofSteps (table : String) (steps : List Step) :
    (ofSteps table steps).WritesClauses (steps.filterMap where?) (steps.filterMap having?) := by
  have hfilter := ExprGroup.eq_ofExprs (members_filter table steps)
  have hgroupFilter := ExprGroup.eq_ofExprs (members_groupFilter table steps)
  refine ⟨_, _, ExprGroup.clauseOf_clausePieces _ _ _ _, ExprGroup.clauseOf_clausePieces _ _ _ _,
    ?_, fun label => ?_⟩
  · rw [sql_build, ← hfilter, ← hgroupFilter, ExprGroup.renderClause_eq,
      ParamList.size_empty_append]
    rfl
  · rw [count_eq, ← hfilter]
    simp only [Statement.ofPieces, countPieces, rowsPieces, Piece.spell, String.append_assoc,
      ParamList.size_empty]

theorem Update.writesClause_ofSteps (table : String) (steps : List Step) :
    (ofSteps table steps).WritesClause (steps.filterMap where?) := by
  have hfilter := ExprGroup.eq_ofExprs (members_filter table steps)
  generalize ofSteps table steps = u at hfilter
  refine ⟨_, ExprGroup.clauseOf_clausePieces _ _ _ _, ?_⟩
  by_cases hentries : u.entries = []
  · rw [if_pos hentries, build, hentries]
    rfl
  · have hsize : (ParamList.bindAll u.dialect (u.entries.map (·.2)) .empty).2.size =
        (Piece.values u.setPieces).length := by
      rw [ParamList.bindAll_eq, ParamList.size_empty_append, values_setPieces]
    rw [if_neg hentries, build_eq u hentries, ← hfilter, hsize]
    simp only [Except.map, Statement.ofPieces, pieces, Piece.spell_append, Nat.zero_add]

theorem Delete.writesClause_ofSteps (table : String) (steps : List Step) :
    (ofSteps table steps).WritesClause (steps.filterMap where?) := by
  have hfilter := ExprGroup.eq_ofExprs (members_filter table steps)
  refine ⟨_, ExprGroup.clauseOf_clausePieces _ _ _ _, ?_⟩
  rw [build_eq, ← hfilter]
  simp only [Statement.ofPieces, pieces, Piece.spell, ParamList.size_empty]

/-- Groups are flat normal forms of what is added to them, and builders write a clause exactly if
something that is not empty was added for it. -/
theorem groups_flat :
    (∀ es : List Expr, let g := ExprGroup.ofExprs es
      g.IsFlat ∧
      g.members = (es.flatMap Expr.flattened).filter (fun e => !e.isEmpty) ∧
      (g.isEmpty ↔ ∀ e ∈ es, e.isEmpty) ∧
      ∀ d ps, (g.render d ps).1 = "" ↔ g.isEmpty) ∧
    (∀ (g : ExprGroup) (es : List Expr), es.foldl ExprGroup.and g = g.and (.all es)) ∧
    (∀ (table : String) (steps : List Select.Step),
      (Select.ofSteps table steps).WritesClauses (steps.filterMap Select.where?)
        (steps.filterMap Select.having?)) ∧
    (∀ (table : String) (steps : List Update.Step),
      (Update.ofSteps table steps).WritesClause (steps.filterMap Update.where?)) ∧
    (∀ (table : String) (steps : List Delete.Step),
      (Delete.ofSteps table steps).WritesClause (steps.filterMap Delete.where?)) := by
  refine ⟨fun es => ?_, ExprGroup.foldl_and_eq_and_all, Select.writesClauses_ofSteps,
    Update.writesClause_ofSteps, Delete.writesClause_ofSteps⟩
  have hflat := ExprGroup.isFlat_ofExprs es
  refine ⟨hflat, ?_, ExprGroup.isEmpty_ofExprs, hflat.render_eq_empty⟩
  rw [ExprGroup.members_ofExprs, List.filter_flatMap]
  exact List.flatMap_congr fun e _ => Expr.conjuncts_eq_filter e

end TableAccess.Sql
