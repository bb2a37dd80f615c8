import TableAccess.Proofs.WriterStatements

/-!
# The rows that are counted

A count and the mutation behind it are rendered by different builders, and in an update the
values that are set take the first places. The WHERE clause has the same pieces in both.
-/
namespace TableAccess

namespace Writer
variable {σ : Type} {w : Writer σ} {criteria : Criteria} {count mutation : Sql.Statement}
  {found : Except Error (List Row)} {affected : Except Error Nat}
  {outcome : Except Error WriteOutcome}

theorem DeleteCalls.of_both
    (h : w.DeleteCalls criteria [.query count found, .execute mutation affected] outcome) :
    ∃ filter, w.filterExpr criteria = .ok filter ∧ count = w.countStatement filter ∧
      mutation = w.deleteStatement filter := by
  cases h with
  | planned _ hcalls =>
    cases hcalls with
    | made hplan hcounted =>
      cases hcounted with
      | sent =>
        obtain ⟨filter, hfilter, hstatements⟩ := deletePlan_eq_ok hplan
        cases hstatements
        exact ⟨filter, hfilter, rfl, rfl⟩

theorem UpdateCalls.of_both {payload : Row}
    (h : w.UpdateCalls payload criteria [.query count found, .execute mutation affected]
      outcome) :
    ∃ filter, w.filterExpr criteria = .ok filter ∧ count = w.countStatement filter ∧
      w.updateStatement (w.prepareUpdate payload) filter = .ok mutation := by
  cases h with
  | made hplan hcounted =>
    cases hcounted with
    | sent => exact updatePlan_eq_ok hplan

variable (w)

/-- A deletion has the text and the values of its count behind FROM and the table. -/
def DeletesCounted (count mutation : Sql.Statement) : Prop :=
  ∃ rows,
    count.sql = "SELECT COUNT(*) AS " ++ countAlias ++ " FROM " ++ w.schema.name ++ rows ∧
    mutation.sql = "DELETE FROM " ++ w.schema.name ++ rows ∧
    mutation.params = count.params

/-- An update has the clause of its count, with the places moved behind those of the columns that
are set, and so have the values. -/
def UpdatesCounted (row : Row) (criteria : Criteria) (count mutation : Sql.Statement) : Prop :=
  let d := w.gateway.dialect
  ∃ ps,
    count.sql = "SELECT COUNT(*) AS " ++ countAlias ++ " FROM " ++ w.schema.name
      ++ Sql.Piece.spell d 0 ps ∧
    count.params = Sql.Piece.values ps ∧
    mutation.sql = "UPDATE " ++ w.schema.name ++ " SET "
      ++ Sql.Piece.spell d 0 (assignments row) ++ Sql.Piece.spell d row.size ps ∧
    mutation.params = row.values ++ count.params ∧
    (d ≠ .postgres → Sql.Piece.spell d row.size ps = Sql.Piece.spell d 0 ps) ∧
    (criteria.isEmpty → ps = []) ∧
    (criteria.isEmpty = false → ∃ qs, ps = .text " WHERE " :: qs)

theorem deletesCounted (filter : Sql.Expr) :
    w.DeletesCounted (w.countStatement filter) (w.deleteStatement filter) := by
  refine ⟨_, w.countStatement_sql filter, ?_, ?_⟩
  · simp only [deleteStatement_eq, Sql.Statement.ofPieces, Sql.Piece.spell]
  · simp only [countStatement_params, deleteStatement_eq, Sql.Statement.ofPieces,
      Sql.Piece.values]

theorem updatesCounted {row : Row} {criteria : Criteria} {filter : Sql.Expr}
    {statement : Sql.Statement} (hfilter : w.filterExpr criteria = .ok filter)
    (hstatement : w.updateStatement row filter = .ok statement) :
    w.UpdatesCounted row criteria (w.countStatement filter) statement := by
  obtain rfl := w.updateStatement_eq hstatement
  have hvalues := values_assignments row
  have hsize : (Sql.Piece.values (assignments row)).length = row.size := by
    simp [hvalues, Row.values, Row.size]
  obtain ⟨hempty, hsome⟩ := w.wherePieces_of_criteria hfilter
  refine ⟨wherePieces filter, w.countStatement_sql filter, w.countStatement_params filter,
    ?_, ?_, ?_, hempty, hsome⟩
  · simp only [Sql.Statement.ofPieces, List.cons_append, Sql.Piece.spell, Sql.Piece.spell_append,
      hsize, Nat.zero_add, String.append_assoc]
  · simp only [countStatement_params, Sql.Statement.ofPieces, List.cons_append,
      Sql.Piece.values, Sql.Piece.values_append, hvalues]
  · intro hdialect
    exact Sql.Piece.spell_unnumbered hdialect row.size 0 _

/-- When both statements of a deletion or of an update are sent, they select by one filter. -/
theorem count_and_mutation_agree (payload : Row) (criteria : Criteria) (s : Session σ) :
    (∀ count found mutation affected,
      (w.recorded.deleteMatching criteria).callsIn s =
        [.query count found, .execute mutation affected] →
      w.DeletesCounted count mutation) ∧
    (∀ count found mutation affected,
      (w.recorded.updateMatching payload criteria).callsIn s =
        [.query count found, .execute mutation affected] →
      w.UpdatesCounted (w.prepareUpdate payload) criteria count mutation) := by
  constructor
  · intro count found mutation affected hcalls
    obtain ⟨-, h⟩ := (w.makes_deleteMatching criteria).callsIn s
    rw [hcalls] at h
    obtain ⟨filter, -, rfl, rfl⟩ := h.of_both
    exact w.deletesCounted filter
  · intro count found mutation affected hcalls
    obtain ⟨-, h⟩ := (w.makes_updateMatching payload criteria).callsIn s
    rw [hcalls] at h
    obtain ⟨filter, hfilter, rfl, hmutation⟩ := h.of_both
    exact w.updatesCounted hfilter hmutation

/-- A writer of users on a connection that finds two of them for every filter. -/
def usersWriter : Writer Unit where
  gateway := .ofConnection {
    dialect := .postgres
    query := fun _ _ _ => (.ok [Row.empty.set countAlias (.int 2)], ())
    execute := fun _ _ _ => (.ok 2, ())
    lastKey := fun _ _ => (.ok none, ()) }
  schema := ⟨"users", [.ofType "id" "int", .ofType "name" "text"], "id"⟩
  timestamp := ""

def usersCriteria : Criteria where
  entries := [("id", .list [.int 1, .int 2]), ("name", .scalar (.text "x"))]

theorem count_and_mutation_agree_users :
    (∃ rows,
      "SELECT COUNT(*) AS num_of_matched_records FROM users WHERE id IN (1, 2) AND name = $1" =
        "SELECT COUNT(*) AS " ++ countAlias ++ " FROM users" ++ rows ∧
      "DELETE FROM users WHERE id IN (1, 2) AND name = $1" = "DELETE FROM users" ++ rows) ∧
    (∃ ps,
      "SELECT COUNT(*) AS num_of_matched_records FROM users WHERE id IN (1, 2) AND name = $1" =
        "SELECT COUNT(*) AS " ++ countAlias ++ " FROM users" ++ Sql.Piece.spell .postgres 0 ps ∧
      "UPDATE users SET name = $1 WHERE id IN (1, 2) AND name = $2" =
        "UPDATE users SET name = $1" ++ Sql.Piece.spell .postgres 1 ps ∧
      ∃ qs, ps = .text " WHERE " :: qs) := by
  have hdelete : (usersWriter.recorded.deleteMatching usersCriteria).callsIn ⟨(), []⟩ =
      [.query ⟨"SELECT COUNT(*) AS num_of_matched_records FROM users "
          ++ "WHERE id IN (1, 2) AND name = $1", [.text "x"]⟩
          (.ok [Row.empty.set countAlias (.int 2)]),
        .execute ⟨"DELETE FROM users WHERE id IN (1, 2) AND name = $1", [.text "x"]⟩ (.ok 2)] :=
    rfl
  have hupdate : (usersWriter.recorded.updateMatching
      { entries := [("name", .text "y"), ("age", .null)] }
      usersCriteria).callsIn ⟨(), []⟩ =
      [.query ⟨"SELECT COUNT(*) AS num_of_matched_records FROM users "
          ++ "WHERE id IN (1, 2) AND name = $1", [.text "x"]⟩
          (.ok [Row.empty.set countAlias (.int 2)]),
        .execute ⟨"UPDATE users SET name = $1 WHERE id IN (1, 2) AND name = $2",
          [.text "y", .text "x"]⟩ (.ok 2)] := rfl
  constructor
  · obtain ⟨rows, hcount, hmutation, -⟩ :=
      (usersWriter.count_and_mutation_agree .empty usersCriteria ⟨(), []⟩).1 _ _ _ _ hdelete
    exact ⟨rows, hcount, hmutation⟩
  · obtain ⟨ps, hcount, -, hmutation, -, -, -, hwhere⟩ :=
      (usersWriter.count_and_mutation_agree _ usersCriteria ⟨(), []⟩).2 _ _ _ _ hupdate
    exact ⟨ps, hcount, hmutation, hwhere rfl⟩

end Writer

end TableAccess
