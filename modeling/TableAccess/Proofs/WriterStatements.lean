import TableAccess.Proofs.Clauses
import TableAccess.Proofs.Plans

/-!
# Statements of a writer

The statements that a writer sends are rendered by different builders from one filter and one row.
Here each is a list of pieces, the count and the two mutations with the same pieces for the filter,
and what a plan consists of, or in which error it ends, is said without the builders.
-/
namespace TableAccess

namespace Writer
variable {σ : Type}

section statements
variable (w : Writer σ)

/-- The WHERE clause of the statements of a writer. -/
def wherePieces (filter : Sql.Expr) : List Sql.Piece :=
  (Sql.ExprGroup.empty.and filter).clausePieces " WHERE "

/-- The assignments of an update. -/
def assignments (row : Row) : List Sql.Piece :=
  [.text ", "].intercalate (row.entries.map fun e => [.text (e.1 ++ " = "), .bound e.2])

theorem countStatement_eq (filter : Sql.Expr) :
    w.countStatement filter = .ofPieces w.gateway.dialect
      (.text ("SELECT COUNT(*) AS " ++ countAlias) :: .text (" FROM " ++ w.schema.name)
        :: wherePieces filter) :=
  Sql.Select.count_eq _ _

theorem deleteStatement_eq (filter : Sql.Expr) :
    w.deleteStatement filter = .ofPieces w.gateway.dialect
      (.text ("DELETE FROM " ++ w.schema.name) :: wherePieces filter) :=
  Sql.Delete.build_eq _

theorem values_assignments (row : Row) : Sql.Piece.values (assignments row) = row.values := by
  rw [assignments, Sql.Piece.values_intercalate, Sql.Update.values_assignments]
  rfl

theorem countStatement_sql (filter : Sql.Expr) :
    (w.countStatement filter).sql = "SELECT COUNT(*) AS " ++ countAlias ++ " FROM "
      ++ w.schema.name ++ Sql.Piece.spell w.gateway.dialect 0 (wherePieces filter) := by
  simp only [countStatement_eq, Sql.Statement.ofPieces, Sql.Piece.spell, String.append_assoc]

theorem countStatement_params (filter : Sql.Expr) :
    (w.countStatement filter).params = Sql.Piece.values (wherePieces filter) := by
  simp only [countStatement_eq, Sql.Statement.ofPieces, Sql.Piece.values]

theorem insertStatement_eq_error {row : Row} (h : row.entries = []) :
    w.insertStatement row = .error (Sql.Insert.emptyPayload w.schema.name) := by
  rw [insertStatement, Sql.Insert.setAll, h]
  rfl

theorem updateStatement_eq_error {row : Row} (h : row.entries = []) (filter : Sql.Expr) :
    w.updateStatement row filter = .error (Sql.Update.emptyPayload w.schema.name) := by
  rw [updateStatement, Sql.Update.setAll, h]
  rfl

theorem insertStatement_eq_ok {row : Row} (h : row.entries ≠ []) :
    w.insertStatement row = .ok (.ofPieces w.gateway.dialect
      (.text ("INSERT INTO " ++ w.schema.name ++ " (" ++ ", ".intercalate row.columns
          ++ ") VALUES (")
        :: [.text ", "].intercalate (row.entries.map fun e => [.bound e.2]) ++ [.text ")"])) :=
  Sql.Insert.build_eq _ h

theorem updateStatement_eq_ok {row : Row} (h : row.entries ≠ []) (filter : Sql.Expr) :
    w.updateStatement row filter = .ok (.ofPieces w.gateway.dialect
      (.text ("UPDATE " ++ w.schema.name ++ " SET ") :: assignments row ++ wherePieces filter)) :=
  Sql.Update.build_eq ((((Sql.Update.ofTable w.schema.name).withDialect
    w.gateway.dialect).setAll row).andWhere filter) h

theorem updateStatement_eq {row : Row} {filter : Sql.Expr} {statement : Sql.Statement}
    (h : w.updateStatement row filter = .ok statement) :
    statement = .ofPieces w.gateway.dialect
      (.text ("UPDATE " ++ w.schema.name ++ " SET ") :: assignments row
        ++ wherePieces filter) := by
  have hne : row.entries ≠ [] := by
    intro hnil
    rw [w.updateStatement_eq_error hnil] at h
    cases h
  exact Except.ok.inj (h.symm.trans (w.updateStatement_eq_ok hne filter))

/-- The clause says what the criteria say, and there is none for empty criteria. -/
theorem wherePieces_of_criteria {criteria : Criteria} {filter : Sql.Expr}
    (h : w.filterExpr criteria = .ok filter) :
    (criteria.isEmpty → wherePieces filter = []) ∧
      (criteria.isEmpty = false → ∃ ps, wherePieces filter = .text " WHERE " :: ps) := by
  have haccepted : Filter.Accepted w.gateway.quote .rowFilter [criteria.toFilter] [filter] :=
    .cons h .nil
  have hfills : Filter.Fills w.gateway.quote .rowFilter (.join [criteria.toFilter])
      (Sql.ExprGroup.empty.and filter) :=
    haccepted.fills (by simp [Sql.ExprGroup.and, Sql.ExprGroup.empty])
  have hconditions : (Filter.join [criteria.toFilter]).conditions = [] ↔ criteria.isEmpty := by
    simp [Filter.join, Criteria.toFilter, Criteria.isEmpty]
  constructor
  · intro hempty
    exact hfills.clausePieces_nil (hconditions.mpr hempty) _
  · intro hempty
    exact ⟨_, hfills.clausePieces_cons (by simp [hconditions, hempty]) _⟩

end statements

section plans
variable {w : Writer σ} {payload : Row} {criteria : Criteria} {e : Error}
  {plan : Sql.Statement × Sql.Statement}

theorem updatePlan_eq_ok (h : w.updatePlan payload criteria = .ok plan) :
    ∃ filter, w.filterExpr criteria = .ok filter ∧ plan.1 = w.countStatement filter ∧
      w.updateStatement (w.prepareUpdate payload) filter = .ok plan.2 := by
  unfold updatePlan at h
  split at h
  · cases h
  · obtain ⟨filter, hfilter, hrest⟩ := bind_eq_ok.mp h
    obtain ⟨statement, hstatement, hplan⟩ := bind_eq_ok.mp hrest
    cases hplan
    exact ⟨filter, hfilter, rfl, hstatement⟩

theorem deletePlan_eq_ok (h : w.deletePlan criteria = .ok plan) :
    ∃ filter, w.filterExpr criteria = .ok filter ∧
      plan = (w.countStatement filter, w.deleteStatement filter) := by
  obtain ⟨filter, hfilter, rfl⟩ := map_eq_ok.mp h
  exact ⟨filter, hfilter, rfl⟩

theorem insertPlan_eq_error_iff :
    w.insertPlan payload = .error e ↔
      (payload.isEmpty ∨ (w.prepareInsert payload).isEmpty) ∧
        Sql.Insert.emptyPayload w.schema.name = e := by
  unfold insertPlan
  cases payload.isEmpty with
  | true => simp
  | false =>
    by_cases hrow : (w.prepareInsert payload).isEmpty
    · simp [w.insertStatement_eq_error (List.isEmpty_iff.mp hrow), hrow]
    · have hne := List.isEmpty_eq_false_iff.mp (Bool.eq_false_iff.mpr hrow)
      simp [w.insertStatement_eq_ok hne, hrow]

theorem updatePlan_eq_error_iff :
    w.updatePlan payload criteria = .error e ↔
      (payload.isEmpty ∧ Sql.Update.emptyPayload w.schema.name = e) ∨
        payload.isEmpty = false ∧ (w.filterExpr criteria = .error e ∨
          (∃ filter, w.filterExpr criteria = .ok filter) ∧
            (w.prepareUpdate payload).isEmpty ∧ Sql.Update.emptyPayload w.schema.name = e) := by
  unfold updatePlan
  cases payload.isEmpty with
  | true => simp
  | false =>
    cases hfilter : w.filterExpr criteria with
    | error e' => simp [bind, Except.bind]
    | ok filter =>
      by_cases hrow : (w.prepareUpdate payload).isEmpty
      · simp [bind, Except.bind, w.updateStatement_eq_error (List.isEmpty_iff.mp hrow), hrow]
      · have hne := List.isEmpty_eq_false_iff.mp (Bool.eq_false_iff.mpr hrow)
        simp [bind, Except.bind, pure, Except.pure, w.updateStatement_eq_ok hne, hrow]

theorem updatePlan_refused_iff :
    (∃ e, w.updatePlan payload criteria = .error e) ↔
      payload.isEmpty ∨ (∃ e, w.filterExpr criteria = .error e) ∨
        (w.prepareUpdate payload).isEmpty := by
  simp only [updatePlan_eq_error_iff]
  cases payload.isEmpty <;> cases w.filterExpr criteria <;> simp

theorem deletePlan_refused_iff :
    (∃ e, w.deletePlan criteria = .error e) ↔ ∃ e, w.filterExpr criteria = .error e := by
  simp only [deletePlan, map_eq_error]

end plans

/-- An insertion makes no call exactly if there is nothing to write, and says so. -/
theorem insert_refused (w : Writer σ) (payload : Row) (s : Session σ) :
    let calls := (w.recorded.insert payload).callsIn s
    (calls = [] ↔ payload.isEmpty ∨ (w.prepareInsert payload).isEmpty) ∧
      (calls = [] →
        ((w.insert payload).run s).1 = .error (Sql.Insert.emptyPayload w.schema.name)) := by
  intro calls
  obtain ⟨-, h⟩ := (w.makes_insert payload).callsIn s
  have hcalls : calls = [] ↔ ∃ e, w.insertPlan payload = .error e :=
    h.calls_eq_nil_iff fun hinserted => by cases hinserted <;> simp
  refine ⟨?_, fun hnil => ?_⟩
  · rw [hcalls]
    simp [insertPlan_eq_error_iff]
  · obtain ⟨e, he⟩ := hcalls.mp hnil
    obtain ⟨-, rfl⟩ := insertPlan_eq_error_iff.mp he
    exact (h.of_error he).2

/-- An update makes no call exactly if there is nothing to write or no filter to write it with. -/
theorem updateMatching_refused (w : Writer σ) (payload : Row) (criteria : Criteria)
    (s : Session σ) :
    let calls := (w.recorded.updateMatching payload criteria).callsIn s
    let outcome := ((w.updateMatching payload criteria).run s).1
    (calls = [] ↔
        payload.isEmpty ∨ (∃ e, w.filterExpr criteria = .error e) ∨
          (w.prepareUpdate payload).isEmpty) ∧
      (calls = [] → ∃ e, outcome = .error e) ∧
      (calls = [] → ∀ filter, w.filterExpr criteria = .ok filter →
        outcome = .error (Sql.Update.emptyPayload w.schema.name)) := by
  intro calls outcome
  obtain ⟨-, h⟩ := (w.makes_updateMatching payload criteria).callsIn s
  have hcalls : calls = [] ↔ ∃ e, w.updatePlan payload criteria = .error e :=
    h.calls_eq_nil_iff fun hcounted => by cases hcounted <;> simp
  refine ⟨hcalls.trans updatePlan_refused_iff, fun hnil => ?_, fun hnil filter hfilter => ?_⟩
  · obtain ⟨e, he⟩ := hcalls.mp hnil
    exact ⟨e, (h.of_error he).2⟩
  · obtain ⟨e, he⟩ := hcalls.mp hnil
    obtain ⟨-, rfl⟩ | ⟨-, hrefused | ⟨-, -, rfl⟩⟩ := updatePlan_eq_error_iff.mp he
    · exact (h.of_error he).2
    · simp [hfilter] at hrefused
    · exact (h.of_error he).2

end Writer

end TableAccess
