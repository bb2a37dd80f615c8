import Mathlib.Data.List.Induction
import Mathlib.Data.List.Nodup
import TableAccess.Proofs.Entries
import TableAccess.Schema.Table

/-!
# Rows by their columns

A row is settled by its columns in order and by the value at each of them (`ext_get?`), so an
operation on rows is known from what it does to the two. Setting keeps the order and filtering
leaves columns out of it.
-/
namespace TableAccess

namespace Row
variable {r r' : Row} {k : String} {v : Value}

theorem length_values (r : Row) : r.values.length = r.size := List.length_map _

theorem nodup_columns (r : Row) : r.columns.Nodup := r.nodup

theorem get?_set (r : Row) (column k : String) (v : Value) :
    (r.set column v).get? k = if k = column then some v else r.get? k := by
  rw [get?, set, find?_setEntry]
  by_cases hk : k = column
  · simp [hk]
  · simp [hk, get?]

theorem columns_set (r : Row) (column : String) (v : Value) :
    (r.set column v).columns =
      if column ∈ r.columns then r.columns else r.columns ++ [column] :=
  keys_setEntry column v r.entries

/-- Setting a column once more replaces the value that it was set to. -/
theorem set_set (r : Row) (column : String) (v v' : Value) :
    (r.set column v).set column v' = r.set column v' :=
  Row.ext (setEntry_setEntry column v v' r.entries)

theorem get?_eq_none : r.get? k = none ↔ k ∉ r.columns := by
  simp only [get?, columns, Option.map_eq_none_iff, List.find?_eq_none, beq_iff_eq, List.mem_map,
    not_exists, not_and]

theorem mem_columns_iff : k ∈ r.columns ↔ ∃ v, r.get? k = some v := by
  rw [← not_iff_not, ← get?_eq_none, ← Option.isSome_iff_exists, Option.not_isSome_iff_eq_none]

/-- What a row holds under a column is its value there. -/
theorem get?_eq_some : r.get? k = some v ↔ (k, v) ∈ r.entries := find?_eq_some_iff r.nodup

theorem ofList_append_singleton (entries : List (String × Value)) (e : String × Value) :
    ofList (entries ++ [e]) = (ofList entries).set e.1 e.2 := by
  simp [ofList, setAll, List.foldl_append]

/-- Columns stand in the order in which they were first set. -/
theorem columns_ofList (entries : List (String × Value)) :
    (ofList entries).columns = (entries.map (·.1)).eraseDups := by
  induction entries using List.reverseRecOn with
  | nil => rfl
  | append_singleton entries e ih =>
    rw [ofList_append_singleton, columns_set, ih, List.map_append, List.eraseDups_append]
    by_cases hmem : e.1 ∈ entries.map (·.1)
    · simp [List.removeAll, List.mem_eraseDups, hmem]
    · simp [List.removeAll, List.mem_eraseDups, List.eraseDups_cons, hmem]

/-- A column holds what it was set to last. -/
theorem get?_ofList (entries : List (String × Value)) (k : String) :
    (ofList entries).get? k = (entries.reverse.find? (·.1 == k)).map (·.2) := by
  induction entries using List.reverseRecOn with
  | nil => rfl
  | append_singleton entries e ih =>
    rw [ofList_append_singleton, get?_set, ih, List.reverse_append]
    by_cases hk : e.1 = k
    · simp [hk]
    · simp [hk, Ne.symm hk]

theorem filter_true (r : Row) : (r.filter fun _ _ => true) = r := by
  simp [filter]

theorem columns_filter_sublist (r : Row) (keep : String → Value → Bool) :
    (r.filter keep).columns.Sublist r.columns :=
  List.filter_sublist.map _

theorem get?_filter (r : Row) (keep : String → Value → Bool) (k : String) :
    (r.filter keep).get? k = (r.get? k).filter (keep k) := by
  refine Option.ext fun v => ?_
  rw [get?_eq_some, Option.filter_eq_some_iff, get?_eq_some]
  simp [filter]

/-- Two rows with the same columns in the same order and the same values are equal. -/
theorem ext_get? (hcolumns : r.columns = r'.columns)
    (hget : ∀ k ∈ r.columns, r.get? k = r'.get? k) : r = r' := by
  have hvalues : ∀ q : Row, q.entries = q.columns.map fun k => (k, (q.get? k).getD .null) := by
    intro q
    rw [columns, List.map_map]
    refine (List.map_id _).symm.trans (List.map_congr_left fun e he => ?_)
    have he' : q.get? e.1 = some e.2 := get?_eq_some.mpr he
    simp [he']
  refine Row.ext ?_
  rw [hvalues r, hvalues r', ← hcolumns]
  refine List.map_congr_left fun k hk => ?_
  rw [hget k hk]

end Row

theorem TableSchema.hasColumn_iff {t : TableSchema} {name : String} :
    t.hasColumn name = true ↔ name ∈ t.columnNames := by
  simp [hasColumn, column?, columnNames]

end TableAccess
