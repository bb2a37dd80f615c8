import TableAccess.Proofs.CountAgreement
import TableAccess.Proofs.Entries
import TableAccess.Proofs.ModelCalls

/-!
# Every criterion is written

A statement that is sent for criteria has one atom for each of them in its WHERE clause, so there
is no deletion without a filter. The clause could be lost wherever something is taken to be empty;
it is not, because no criterion is lowered to an empty expression.
-/
namespace TableAccess

/-- The values that are bound where a column is compared with an operand. -/
def Operand.scalars : Operand → List Value
  | .scalar v => [v]
  | .list _ => []

namespace Criteria

def scalars (c : Criteria) : List Value := c.entries.flatMap (·.2.scalars)

/-- The text of a criterion behind `k` bound values. -/
inductive Atom (t : Target) (k : Nat) : String × Operand → String → Prop
  | value (column : String) (v : Value) :
    Atom t k (column, .scalar v) (Text.trim column ++ " = " ++ t.dialect.placeholder (k + 1))
  | members (column : String) {vs : List Value} {ls : List String} (hne : vs ≠ [])
      (h : List.Forall₂
        (fun v l => Condition.literal t.quote .rowFilter (Text.trim column) v = .ok l) vs ls) :
    Atom t k (column, .list vs) (Text.trim column ++ " IN (" ++ ", ".intercalate ls ++ ")")
  | noMembers (column : String) : Atom t k (column, .list []) "1=0"

/-- The texts of criteria behind `k` bound values, one for each in their order. -/
inductive Atoms (t : Target) : Nat → List (String × Operand) → List String → Prop
  | nil (k : Nat) : Atoms t k [] []
  | cons {k : Nat} {e : String × Operand} {a : String} {es : List (String × Operand)}
      {as : List String} (h : Atom t k e a) (hs : Atoms t (k + e.2.scalars.length) es as) :
    Atoms t k (e :: es) (a :: as)

variable {t : Target} {k : Nat}

theorem Atom.ne_empty {e : String × Operand} {a : String} (h : Atom t k e a) : a ≠ "" := by
  cases h with
  | value | members => simp [String.append_eq_empty_iff]
  | noMembers => decide

theorem Atoms.length_eq {es : List (String × Operand)} {as : List String} (h : Atoms t k es as) :
    as.length = es.length := by
  induction h with
  | nil => rfl
  | cons _ _ ih => simp [ih]

theorem Atoms.intercalate_ne_empty {es : List (String × Operand)} {as : List String}
    (h : Atoms t k es as) (hne : es ≠ []) : " AND ".intercalate as ≠ "" := by
  cases h with
  | nil => exact absurd rfl hne
  | @cons _ _ a _ as h hs =>
    have ha := h.ne_empty
    cases as with
    | nil => simpa using ha
    | cons b bs => simp [String.intercalate_cons_cons, String.append_eq_empty_iff, ha]

def LowersTo (t : Target) (e : String × Operand) (x : Sql.Expr) : Prop :=
  Condition.LowersTo t.quote .rowFilter (.compare e.1 none e.2) x

theorem LowersTo.atom {e : String × Operand} {x : Sql.Expr} (h : LowersTo t e x) (k : Nat) :
    Atom t k e (Sql.Piece.spell t.dialect k x.pieces) := by
  obtain ⟨column, operand⟩ := e
  obtain ⟨-, o, ho, hx⟩ := Condition.lowersTo_compare.mp h
  cases operand with
  | scalar v =>
    cases ho
    cases hx
    have htext : Sql.Piece.spell t.dialect k
        (Sql.Expr.compare (Text.trim column) "=" v).pieces =
          Text.trim column ++ " = " ++ t.dialect.placeholder (k + 1) := by
      simp [Sql.Expr.pieces, Sql.Expr.lexemes, Sql.Lexeme.pieces, Sql.Piece.spell,
        String.append_assoc]
    exact htext ▸ .value column v
  | list vs =>
    cases ho
    obtain ⟨ls, hls, rfl⟩ := Condition.membership_eq_ok.mp hx
    cases hls with
    | nil => exact .noMembers column
    | @cons v l vs ls hl hls =>
      have htext : Sql.Piece.spell t.dialect k
          (Sql.Expr.inLiterals (Text.trim column) (l :: ls) false).pieces =
            Text.trim column ++ " IN (" ++ ", ".intercalate (l :: ls) ++ ")" := by
        simp [Sql.Expr.inLiterals, Sql.Expr.pieces, Sql.Expr.lexemes, Sql.Lexeme.pieces,
          Sql.Piece.spell]
      exact htext ▸ .members column (by simp) (.cons hl hls)

theorem LowersTo.values {e : String × Operand} {x : Sql.Expr} (h : LowersTo t e x) :
    Sql.Piece.values x.pieces = e.2.scalars := by
  rw [Condition.values_compare h]
  cases e.2 <;> rfl

theorem atoms_spellEach {es : List (String × Operand)} {xs : List Sql.Expr}
    (h : List.Forall₂ (LowersTo t) es xs) (k : Nat) :
    Atoms t k es (Sql.Piece.spellEach t.dialect k (xs.map Sql.Expr.pieces)) := by
  induction h generalizing k with
  | nil => exact .nil k
  | cons hx _ ih =>
    refine .cons (hx.atom k) ?_
    rw [hx.values]
    exact ih _

theorem forall₂_lowersTo {es : List (String × Operand)} {xs : List Sql.Expr} :
    List.Forall₂ (Condition.LowersTo t.quote .rowFilter)
        (es.map fun e => .compare e.1 none e.2) xs ↔ List.Forall₂ (LowersTo t) es xs :=
  List.forall₂_map_left_iff

theorem allEmpty_of_lowersTo {es : List (String × Operand)} {xs : List Sql.Expr}
    (h : List.Forall₂ (LowersTo t) es xs) (hne : es ≠ []) : Sql.Expr.allEmpty xs = false := by
  cases h with
  | nil => exact absurd rfl hne
  | cons hx _ =>
    have hempty := Condition.LowersTo.isEmpty hx
    simp [Sql.Expr.allEmpty, hempty]

theorem isGrouped_of_lowersTo {es : List (String × Operand)} {xs : List Sql.Expr}
    (h : List.Forall₂ (LowersTo t) es xs) : ∀ x ∈ xs, x.isGrouped = false := by
  induction h with
  | nil => simp
  | cons hx _ ih => exact List.forall_mem_cons.mpr ⟨Condition.isGrouped_compare hx, ih⟩

theorem values_flatMap {es : List (String × Operand)} {xs : List Sql.Expr}
    (h : List.Forall₂ (LowersTo t) es xs) :
    (xs.map Sql.Expr.pieces).flatMap Sql.Piece.values = es.flatMap (·.2.scalars) := by
  induction h with
  | nil => rfl
  | cons hx _ ih => simp only [List.map_cons, List.flatMap_cons, hx.values, ih]

end Criteria

/-- A statement selects the rows by criteria: behind its head, in which some values are bound
already, stands a WHERE clause with one atom for each criterion. -/
def Sql.Statement.FilteredBy (st : Sql.Statement) (t : Target) (criteria : Criteria)
    (head : String) (written : List Value) : Prop :=
  ∃ atoms, atoms.length = criteria.size ∧ Criteria.Atoms t written.length criteria.entries atoms ∧
    st.sql = head ++ " WHERE " ++ " AND ".intercalate atoms ∧
    st.params = written ++ criteria.scalars

theorem Sql.Statement.FilteredBy.exists_condition {st : Sql.Statement} {t : Target}
    {criteria : Criteria} {head : String} {written : List Value}
    (h : st.FilteredBy t criteria head written) (hne : criteria.isEmpty = false) :
    ∃ condition, condition ≠ "" ∧ st.sql = head ++ " WHERE " ++ condition := by
  obtain ⟨atoms, -, hatoms, hsql, -⟩ := h
  have hentries : criteria.entries ≠ [] := List.isEmpty_eq_false_iff.mp hne
  exact ⟨_, hatoms.intercalate_ne_empty hentries, hsql⟩

/-- A statement selects the rows that meet criteria: all of them if nothing is asked of them, and
otherwise by a WHERE clause. -/
def Sql.Statement.SelectsBy (st : Sql.Statement) (t : Target) (criteria : Criteria)
    (head : String) (written : List Value) : Prop :=
  if criteria.isEmpty then st = ⟨head, written⟩ else st.FilteredBy t criteria head written

theorem Sql.Statement.SelectsBy.filteredBy {st : Sql.Statement} {t : Target} {criteria : Criteria}
    {head : String} {written : List Value} (h : st.SelectsBy t criteria head written)
    (hne : criteria.isEmpty = false) : st.FilteredBy t criteria head written := by
  simpa [SelectsBy, hne] using h

/-- A call for a table selects by criteria, be it the count or the mutation behind it. -/
def Call.FilteredBy (t : Target) (criteria : Criteria) (table mutation : String)
    (written : List Value) : Call → Prop
  | .query st _ =>
    st.FilteredBy t criteria ("SELECT COUNT(*) AS " ++ countAlias ++ " FROM " ++ table) []
  | .execute st _ => st.FilteredBy t criteria mutation written
  | .lastKey _ _ => False

theorem Counted.forall_mem {count mutation : Sql.Statement} {calls : List Call}
    {outcome : Except Error WriteOutcome} (h : Counted count mutation calls outcome)
    {P : Call → Prop} (hcount : ∀ answer, P (.query count answer))
    (hmutation : ∀ answer, P (.execute mutation answer)) : ∀ call ∈ calls, P call := by
  cases h <;> simp [hcount, hmutation]

namespace Writer
variable {σ : Type} (w : Writer σ) {criteria : Criteria} {filter : Sql.Expr}

theorem wherePieces_eq (h : w.filterExpr criteria = .ok filter) (hne : criteria.isEmpty = false) :
    ∃ xs, List.Forall₂ (Criteria.LowersTo w.gateway.target) criteria.entries xs ∧
      wherePieces filter =
        .text " WHERE " :: [.text " AND "].intercalate (xs.map Sql.Expr.pieces) := by
  obtain ⟨xs, hxs, rfl⟩ := Filter.toExpr_eq_ok.mp h
  have hlowered : List.Forall₂ (Criteria.LowersTo w.gateway.target) criteria.entries xs :=
    Criteria.forall₂_lowersTo.mp hxs
  have hgrouped := Criteria.isGrouped_of_lowersTo hlowered
  have hsome := Criteria.allEmpty_of_lowersTo hlowered (List.isEmpty_eq_false_iff.mp hne)
  refine ⟨xs, hlowered, ?_⟩
  rw [wherePieces, Sql.ExprGroup.and, Sql.ExprGroup.empty, List.nil_append, Sql.Expr.conjuncts,
    Sql.Expr.conjunctsOf_of_isGrouped hgrouped, Sql.ExprGroup.clausePieces,
    ← Sql.Expr.pieces_all_of_isGrouped hgrouped]
  simp [hsome]

theorem exists_atoms (h : w.filterExpr criteria = .ok filter) (hne : criteria.isEmpty = false)
    (k : Nat) :
    ∃ atoms, Criteria.Atoms w.gateway.target k criteria.entries atoms ∧
      Sql.Piece.spell w.gateway.dialect k (wherePieces filter) =
        " WHERE " ++ " AND ".intercalate atoms := by
  obtain ⟨xs, hxs, hpieces⟩ := w.wherePieces_eq h hne
  refine ⟨_, Criteria.atoms_spellEach hxs k, ?_⟩
  rw [hpieces, Sql.Piece.spell, ← Sql.Piece.intercalate_spellEach]
  rfl

theorem values_wherePieces (h : w.filterExpr criteria = .ok filter)
    (hne : criteria.isEmpty = false) :
    Sql.Piece.values (wherePieces filter) = criteria.scalars := by
  obtain ⟨xs, hxs, hpieces⟩ := w.wherePieces_eq h hne
  rw [hpieces, Sql.Piece.values, Sql.Piece.values_intercalate, Criteria.values_flatMap hxs]
  rfl

theorem filteredBy_ofPieces (h : w.filterExpr criteria = .ok filter)
    (hne : criteria.isEmpty = false) (head : List Sql.Piece) :
    (Sql.Statement.ofPieces w.gateway.dialect (head ++ wherePieces filter)).FilteredBy
      w.gateway.target criteria (Sql.Piece.spell w.gateway.dialect 0 head)
      (Sql.Piece.values head) := by
  obtain ⟨atoms, hatoms, htext⟩ := w.exists_atoms h hne (Sql.Piece.values head).length
  refine ⟨atoms, hatoms.length_eq, hatoms, ?_, ?_⟩
  · rw [Sql.Statement.ofPieces, Sql.Piece.spell_append, Nat.zero_add, htext, String.append_assoc]
  · rw [Sql.Statement.ofPieces, Sql.Piece.values_append, w.values_wherePieces h hne]

theorem selectsBy_ofPieces (h : w.filterExpr criteria = .ok filter) (head : List Sql.Piece) :
    (Sql.Statement.ofPieces w.gateway.dialect (head ++ wherePieces filter)).SelectsBy
      w.gateway.target criteria (Sql.Piece.spell w.gateway.dialect 0 head)
      (Sql.Piece.values head) := by
  unfold Sql.Statement.SelectsBy
  cases hempty : criteria.isEmpty with
  | true =>
    rw [(w.wherePieces_of_criteria h).1 hempty, List.append_nil]
    rfl
  | false => exact w.filteredBy_ofPieces h hempty head

theorem selectsBy_countStatement (h : w.filterExpr criteria = .ok filter) :
    (w.countStatement filter).SelectsBy w.gateway.target criteria
      ("SELECT COUNT(*) AS " ++ countAlias ++ " FROM " ++ w.schema.name) [] := by
  have hcount := w.selectsBy_ofPieces h
    [.text ("SELECT COUNT(*) AS " ++ countAlias), .text (" FROM " ++ w.schema.name)]
  rw [countStatement_eq]
  simpa [Sql.Piece.spell, Sql.Piece.values, String.append_assoc] using hcount

theorem selectsBy_deleteStatement (h : w.filterExpr criteria = .ok filter) :
    (w.deleteStatement filter).SelectsBy w.gateway.target criteria
      ("DELETE FROM " ++ w.schema.name) [] := by
  have hdelete := w.selectsBy_ofPieces h [.text ("DELETE FROM " ++ w.schema.name)]
  rw [deleteStatement_eq]
  simpa [Sql.Piece.spell, Sql.Piece.values] using hdelete

def updateHead (row : Row) : String :=
  "UPDATE " ++ w.schema.name ++ " SET " ++ Sql.Piece.spell w.gateway.dialect 0 (assignments row)

theorem selectsBy_updateStatement {row : Row} {statement : Sql.Statement}
    (h : w.filterExpr criteria = .ok filter)
    (hstatement : w.updateStatement row filter = .ok statement) :
    statement.SelectsBy w.gateway.target criteria (w.updateHead row) row.values := by
  obtain rfl := w.updateStatement_eq hstatement
  have hupdate := w.selectsBy_ofPieces h
    (.text ("UPDATE " ++ w.schema.name ++ " SET ") :: assignments row)
  simpa only [Sql.Piece.spell, Sql.Piece.values, values_assignments, updateHead] using hupdate

variable {w} {calls : List Call} {outcome : Except Error WriteOutcome}

theorem DeleteCalls.filteredBy (h : w.DeleteCalls criteria calls outcome)
    (hne : criteria.isEmpty = false) :
    ∀ call ∈ calls, call.FilteredBy w.gateway.target criteria w.schema.name
      ("DELETE FROM " ++ w.schema.name) [] := by
  cases h with
  | skipped hempty => simp
  | planned _ hcalls =>
    cases hcalls with
    | refused => simp
    | made hplan hcounted =>
      obtain ⟨filter, hfilter, rfl⟩ := deletePlan_eq_ok hplan
      exact hcounted.forall_mem (fun _ => (w.selectsBy_countStatement hfilter).filteredBy hne)
        fun _ => (w.selectsBy_deleteStatement hfilter).filteredBy hne

theorem UpdateCalls.filteredBy {payload : Row} (h : w.UpdateCalls payload criteria calls outcome)
    (hne : criteria.isEmpty = false) :
    ∀ call ∈ calls, call.FilteredBy w.gateway.target criteria w.schema.name
      (w.updateHead (w.prepareUpdate payload)) (w.prepareUpdate payload).values := by
  cases h with
  | refused => simp
  | made hplan hcounted =>
    obtain ⟨filter, hfilter, hcount, hstatement⟩ := updatePlan_eq_ok hplan
    rw [hcount] at hcounted
    exact hcounted.forall_mem (fun _ => (w.selectsBy_countStatement hfilter).filteredBy hne)
      fun _ => (w.selectsBy_updateStatement hfilter hstatement).filteredBy hne

/-- A deletion without criteria makes no call, and every command of another one has a filter. -/
theorem DeleteCalls.execute (h : w.DeleteCalls criteria calls outcome) :
    (criteria.isEmpty → calls = []) ∧
      ∀ st answer, .execute st answer ∈ calls →
        ∃ condition, condition ≠ "" ∧
          st.sql = "DELETE FROM " ++ w.schema.name ++ " WHERE " ++ condition := by
  cases hempty : criteria.isEmpty with
  | true =>
    obtain rfl := h.eq_nil_of_isEmpty hempty
    simp
  | false =>
    refine ⟨by simp, fun st answer hmem => ?_⟩
    have hfiltered := h.filteredBy hempty _ hmem
    exact hfiltered.exists_condition hempty

end Writer

variable {σ ρ : Type} [Entity ρ]

theorem Model.RowCalls.execute {m : Model σ} {r : ρ} {calls : List Call}
    {outcome : Except Error WriteOutcome} (h : m.RowCalls r calls outcome) :
    ∀ st answer, .execute st answer ∈ calls →
      ∃ condition, condition ≠ "" ∧
        st.sql = "DELETE FROM " ++ m.schema.name ++ " WHERE " ++ condition := by
  cases h with
  | noData => simp
  | deleted _ hcalls => exact hcalls.execute.2

/-- No criterion is lost, neither when criteria are made nor when statements are sent for them, and
no deletion is without a filter. -/
theorem every_criterion_filters (w : Writer σ) (m : Model σ) (payload : Row) (criteria : Criteria)
    (r : ρ) (s : Session σ) :
    let deletion := (w.recorded.deleteMatching criteria).callsIn s
    let update := (w.recorded.updateMatching payload criteria).callsIn s
    let row := w.prepareUpdate payload
    ((∀ settings, (Criteria.ofSettings settings).Keeps settings) ∧
      (∀ values, (Criteria.ofRow values).Keeps (Criteria.rowSettings values)) ∧
      ∀ members made, Criteria.ofJson (.object members) = .ok made →
        ∃ settings, Criteria.ReadAs members settings ∧ made.Keeps settings) ∧
    (criteria.isEmpty = false →
      (∀ call ∈ deletion, call.FilteredBy w.gateway.target criteria w.schema.name
        ("DELETE FROM " ++ w.schema.name) []) ∧
      ∀ call ∈ update, call.FilteredBy w.gateway.target criteria w.schema.name
        (w.updateHead row) row.values) ∧
    (criteria.isEmpty → deletion = []) ∧
    (∀ st answer, .execute st answer ∈ deletion → ∃ condition, condition ≠ "" ∧
      st.sql = "DELETE FROM " ++ w.schema.name ++ " WHERE " ++ condition) ∧
    ∀ st answer, .execute st answer ∈ s.callsIn (m.recorded.deleteRecord r) →
      ∃ condition, condition ≠ "" ∧
        st.sql = "DELETE FROM " ++ m.schema.name ++ " WHERE " ++ condition := by
  intro deletion update row
  obtain ⟨-, hdeletion⟩ := (w.makes_deleteMatching criteria).callsIn s
  obtain ⟨-, hupdate⟩ := (w.makes_updateMatching payload criteria).callsIn s
  obtain ⟨-, hrecord⟩ := (m.makes_deleteRow r).callsIn s
  refine ⟨⟨Criteria.keeps_ofSettings, ?_, ?_⟩, ?_, hdeletion.execute.1, hdeletion.execute.2, ?_⟩
  · intro values
    exact Criteria.ofRow_eq values ▸ Criteria.keeps_ofSettings _
  · intro members made h
    obtain ⟨settings, hsettings, rfl⟩ := Criteria.ofJson_eq_ok h
    exact ⟨settings, hsettings, Criteria.keeps_ofSettings settings⟩
  · intro hne
    exact ⟨hdeletion.filteredBy hne, hupdate.filteredBy hne⟩
  · rw [Model.callsIn_deleteRecord]
    exact hrecord.execute

/-- A model of users on the connection of `Writer.usersWriter`. -/
def Model.users : Model Unit where
  config := { tableName := "users", primaryColumn := "id" }
  schema := Writer.usersWriter.schema
  gateway := Writer.usersWriter.gateway

/-- Criteria with a list, a list without members and a null. -/
def Criteria.ofUsers : Criteria :=
  { entries := [(" id ", .list [.int 1, .text "x"]), ("kind", .list []), ("name", .scalar .null)] }

theorem every_criterion_filters_users :
    (∃ settings, Criteria.ReadAs [("id", .int 7), ("name", .array [])] settings ∧
      ({ entries := [("id", .scalar (.int 7)), ("name", .list [])] } : Criteria).Keeps settings) ∧
    Sql.Statement.FilteredBy
      ⟨"DELETE FROM users WHERE id IN (1, 'x') AND 1=0 AND name = $1", [.null]⟩
      Dialect.postgres.target Criteria.ofUsers "DELETE FROM users" [] ∧
    Sql.Statement.FilteredBy
      ⟨"UPDATE users SET name = $1 WHERE id IN (1, 'x') AND 1=0 AND name = $2", [.text "y", .null]⟩
      Dialect.postgres.target Criteria.ofUsers "UPDATE users SET name = $1" [.text "y"] ∧
    (∃ condition, condition ≠ "" ∧
      "DELETE FROM users WHERE id = $1" = "DELETE FROM users WHERE " ++ condition) := by
  have hdelete : (Writer.usersWriter.recorded.deleteMatching Criteria.ofUsers).callsIn ⟨(), []⟩ =
      [.query ⟨"SELECT COUNT(*) AS num_of_matched_records FROM users "
          ++ "WHERE id IN (1, 'x') AND 1=0 AND name = $1", [.null]⟩
          (.ok [Row.empty.set countAlias (.int 2)]),
        .execute ⟨"DELETE FROM users WHERE id IN (1, 'x') AND 1=0 AND name = $1", [.null]⟩
          (.ok 2)] := rfl
  have hupdate : (Writer.usersWriter.recorded.updateMatching { entries := [("name", .text "y")] }
      Criteria.ofUsers).callsIn ⟨(), []⟩ =
      [.query ⟨"SELECT COUNT(*) AS num_of_matched_records FROM users "
          ++ "WHERE id IN (1, 'x') AND 1=0 AND name = $1", [.null]⟩
          (.ok [Row.empty.set countAlias (.int 2)]),
        .execute ⟨"UPDATE users SET name = $1 WHERE id IN (1, 'x') AND 1=0 AND name = $2",
          [.text "y", .null]⟩ (.ok 2)] := rfl
  have hrecord : (⟨(), []⟩ : Session Unit).callsIn
      (Model.users.recorded.deleteRecord (⟨Row.empty.set "id" (.int 7), false⟩ : Record)) =
      [.query ⟨"SELECT COUNT(*) AS num_of_matched_records FROM users WHERE id = $1", [.int 7]⟩
          (.ok [Row.empty.set countAlias (.int 2)]),
        .execute ⟨"DELETE FROM users WHERE id = $1", [.int 7]⟩ (.ok 2)] := rfl
  obtain ⟨⟨-, -, hjson⟩, hcalls, -, -, hdeleted⟩ := every_criterion_filters Writer.usersWriter
    Model.users { entries := [("name", .text "y")] } Criteria.ofUsers
    (⟨Row.empty.set "id" (.int 7), false⟩ : Record) ⟨(), []⟩
  obtain ⟨hdeletion, hwritten⟩ := hcalls rfl
  rw [hdelete] at hdeletion
  rw [hupdate] at hwritten
  rw [hrecord] at hdeleted
  refine ⟨hjson _ _ rfl, ?_, ?_, ?_⟩
  · exact hdeletion _ (List.mem_cons_of_mem _ (List.mem_singleton_self _))
  · exact hwritten _ (List.mem_cons_of_mem _ (List.mem_singleton_self _))
  · exact hdeleted _ _ (List.mem_cons_of_mem _ (List.mem_singleton_self _))

end TableAccess
