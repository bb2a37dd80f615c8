import TableAccess.Proofs.Columns
import TableAccess.Proofs.Traversals

/-!
# Rows and their histories

However a row was made, it holds under each column what the column was last set to, unless the
column was removed after that, and its columns stand in the order in which they were last newly
inserted. The log of a history says what was set and removed, change by change; `LeftBy.put` and
`LeftBy.drop` carry what a row has of its log over one change, and every operation on rows is a
run of such changes.
-/
namespace TableAccess

namespace Row

section Operations
variable {r r' r'' : Row} {column k : String}

/-- Removing a column leaves the others as they stand. -/
theorem erase_eq_filter (r : Row) (column : String) :
    r.erase column = r.filter fun k _ => k != column := by
  refine Row.ext ?_
  obtain ⟨entries, h⟩ := r
  simp only [erase, filter]
  induction entries with
  | nil => rfl
  | cons e entries ih =>
    obtain ⟨hnotMem, hnodup⟩ := List.nodup_cons.mp h
    by_cases he : e.1 = column
    · have hrest : ∀ e' ∈ entries, (e'.1 != column) = true := by
        intro e' he'
        have hne : e'.1 ≠ e.1 := by
          intro heq
          exact hnotMem (List.mem_map.mpr ⟨e', he', heq⟩)
        simpa [he] using hne
      rw [List.eraseP_cons_of_pos (by simpa using he), List.filter_cons_of_neg (by simpa using he),
        List.filter_eq_self.mpr hrest]
    · rw [List.eraseP_cons_of_neg (by simpa using he),
        List.filter_cons_of_pos (by simpa using he), ih hnodup]

theorem columns_filter (r : Row) (keep : String → Value → Bool) :
    (r.filter keep).columns = r.columns.filter fun k => (r.get? k).any (keep k) := by
  have hentry : ∀ e ∈ r.entries, keep e.1 e.2 = (r.get? e.1).any (keep e.1) := by
    intro e he
    rw [get?_eq_some.mpr he, Option.any_some]
  rw [columns, columns, List.filter_map]
  exact congrArg (List.map (·.1)) (List.filter_congr hentry)

theorem columns_erase (r : Row) (column : String) :
    (r.erase column).columns = r.columns.filter (· != column) := by
  rw [erase_eq_filter, columns, columns, List.filter_map, filter]
  rfl

theorem get?_erase (r : Row) (column k : String) :
    (r.erase column).get? k = if k = column then none else r.get? k := by
  rw [erase_eq_filter, get?_filter]
  by_cases hk : k = column
  · simp [hk]
  · cases r.get? k <;> simp [hk]

theorem foldl_erase_eq_filter (r : Row) (removed : List String) :
    removed.foldl erase r = r.filter fun k _ => k ∉ removed := by
  induction removed generalizing r with
  | nil => simp [filter]
  | cons column removed ih =>
    rw [List.foldl_cons, ih, erase_eq_filter]
    simp only [filter, List.filter_filter, mk.injEq]
    refine List.filter_congr fun e _ => ?_
    by_cases he : e.1 = column <;> simp [he]

/-- The columns whose values are not kept. -/
def unkept (keep : String → Value → Bool) (r : Row) : List String :=
  (r.entries.filter fun e => !keep e.1 e.2).map (·.1)

theorem mem_unkept {keep : String → Value → Bool} {e : String × Value} (he : e ∈ r.entries) :
    e.1 ∈ r.unkept keep ↔ keep e.1 e.2 = false := by
  constructor
  · intro hmem
    obtain ⟨⟨c, v⟩, hfilter, rfl⟩ := List.mem_map.mp hmem
    obtain ⟨hentry, hkeep⟩ := List.mem_filter.mp hfilter
    have hvalue : some v = some e.2 :=
      (get?_eq_some.mpr hentry).symm.trans (get?_eq_some.mpr he)
    rw [← Option.some.inj hvalue]
    simpa using hkeep
  · intro hkeep
    exact List.mem_map_of_mem (List.mem_filter.mpr ⟨he, by simp [hkeep]⟩)

/-- Filtering removes the columns whose values are not kept, one after another. -/
theorem filter_eq_foldl_erase (r : Row) (keep : String → Value → Bool) :
    r.filter keep = (r.unkept keep).foldl erase r := by
  rw [foldl_erase_eq_filter]
  simp only [filter, mk.injEq]
  refine List.filter_congr fun e he => ?_
  cases hkeep : keep e.1 e.2 <;> simp [mem_unkept he, hkeep]

theorem setAll_cons (r : Row) (e : String × Value) (entries : List (String × Value)) :
    r.setAll (e :: entries) = (r.set e.1 e.2).setAll entries := rfl

theorem setAll_append_singleton (r : Row) (entries : List (String × Value)) (e : String × Value) :
    r.setAll (entries ++ [e]) = (r.setAll entries).set e.1 e.2 := by
  simp [setAll, List.foldl_append]

theorem get?_setAll (r : Row) (entries : List (String × Value)) (k : String) :
    (r.setAll entries).get? k =
      ((entries.reverse.find? (·.1 == k)).map (·.2)).or (r.get? k) := by
  induction entries using List.reverseRecOn with
  | nil => rfl
  | append_singleton entries e ih =>
    rw [setAll_append_singleton, get?_set, ih, List.reverse_append]
    by_cases hk : e.1 = k
    · simp [hk]
    · simp [hk, Ne.symm hk]

theorem columns_setAll (r : Row) {entries : List (String × Value)}
    (h : (entries.map (·.1)).Nodup) :
    (r.setAll entries).columns =
      r.columns ++ (entries.map (·.1)).filter fun k => k ∉ r.columns := by
  induction entries generalizing r with
  | nil => simp [setAll]
  | cons e entries ih =>
    obtain ⟨hnotMem, hnodup⟩ := List.nodup_cons.mp h
    rw [setAll_cons, ih _ hnodup, columns_set]
    by_cases hmem : e.1 ∈ r.columns
    · simp [hmem]
    · have hrest : ∀ k ∈ entries.map (·.1),
          decide (k ∉ r.columns ++ [e.1]) = decide (k ∉ r.columns) := by
        intro k hk
        have hne : k ≠ e.1 := by
          rintro rfl
          exact hnotMem hk
        simp [hne]
      rw [if_neg hmem, List.filter_congr hrest, List.append_assoc, List.map_cons,
        List.filter_cons_of_pos (by simpa using hmem)]
      rfl

/-- The other row's values come first. -/
theorem get?_merge (r r' : Row) (k : String) :
    (r.merge r').get? k = (r'.get? k).or (r.get? k) := by
  have hnodup : (r'.entries.reverse.map (·.1)).Nodup := by
    rw [List.map_reverse]
    exact List.nodup_reverse.mpr r'.nodup
  have hreverse : (r'.entries.reverse.find? (·.1 == k)).map (·.2) = r'.get? k := by
    refine Option.ext fun v => ?_
    rw [find?_eq_some_iff hnodup, get?_eq_some, List.mem_reverse]
  rw [merge, get?_setAll, hreverse]

/-- The other row's new columns come last. -/
theorem columns_merge (r r' : Row) :
    (r.merge r').columns = r.columns ++ r'.columns.filter fun k => k ∉ r.columns :=
  columns_setAll r r'.nodup

theorem merge_assoc (r r' r'' : Row) : (r.merge r').merge r'' = r.merge (r'.merge r'') := by
  refine ext_get? ?_ fun k _ => ?_
  · rw [columns_merge, columns_merge, columns_merge, columns_merge, List.filter_append,
      List.filter_filter, List.append_assoc]
    congr 2
    refine List.filter_congr fun k _ => ?_
    by_cases hk : k ∈ r.columns
    · simp [hk]
    · simp [hk]
  · rw [get?_merge, get?_merge, get?_merge, get?_merge, Option.or_assoc]

end Operations

/-- A single change to a row. -/
inductive Change where
  | put (column : String) (value : Value)
  | drop (column : String)
  deriving DecidableEq

namespace Change

def column : Change → String
  | .put column _ => column
  | .drop column => column

/-- What a column holds behind the change. -/
def value? : Change → Option Value
  | .put _ value => some value
  | .drop _ => none

end Change

/-- What a column was last set to, unless it was removed after that. -/
def held (log : List Change) (column : String) : Option Value :=
  (log.reverse.find? (·.column == column)).bind Change.value?

/-- A column was last newly inserted by the change with a number: the change sets it, it was not
there before, and no later change removes it. -/
structure InsertedAt (log : List Change) (column : String) (i : Nat) : Prop where
  put : ∃ value, log[i]? = some (.put column value)
  new : held (log.take i) column = none
  kept : ∀ j, i < j → log[j]? ≠ some (.drop column)

/-- A row is what a log leaves: no column stands twice, each holds what it was last set to, and the
columns stand in the order in which they were last newly inserted. -/
structure LeftBy (log : List Change) (r : Row) : Prop where
  nodup : r.columns.Nodup
  get?_eq : ∀ column, r.get? column = held log column
  inserted : ∀ column ∈ r.columns, ∃ i, InsertedAt log column i
  ordered : r.columns.Pairwise fun c c' =>
    ∀ i j, InsertedAt log c i → InsertedAt log c' j → i < j

section Logs
variable {log : List Change} {change : Change} {column k : String} {r : Row} {i : Nat}

theorem held_append_singleton (log : List Change) (change : Change) (k : String) :
    held (log ++ [change]) k = if change.column = k then change.value? else held log k := by
  rw [held, List.reverse_append]
  by_cases hk : change.column = k
  · simp [hk]
  · simp [hk, held]

theorem InsertedAt.lt_length (h : InsertedAt log column i) : i < log.length := by
  obtain ⟨value, hput⟩ := h.put
  exact (List.getElem?_eq_some_iff.mp hput).1

/-- An insertion stays where it is as long as its column is not removed. -/
theorem InsertedAt.append_singleton (h : InsertedAt log column i)
    (hchange : change ≠ .drop column) : InsertedAt (log ++ [change]) column i := by
  have hi := h.lt_length
  obtain ⟨⟨value, hput⟩, hnew, hkept⟩ := h
  refine ⟨⟨value, ?_⟩, ?_, fun j hj => ?_⟩
  · rwa [List.getElem?_append_left hi]
  · rwa [List.take_append_of_le_length (Nat.le_of_lt hi)]
  · rcases Nat.lt_trichotomy j log.length with hlt | rfl | hgt
    · rw [List.getElem?_append_left hlt]
      exact hkept j hj
    · simpa using hchange
    · rw [List.getElem?_eq_none (by simp; omega)]
      simp

/-- A column that is set newly is inserted there. -/
theorem insertedAt_append_put (hnew : held log column = none) (value : Value) :
    InsertedAt (log ++ [.put column value]) column log.length := by
  refine ⟨⟨value, by simp⟩, by simpa using hnew, fun j hj => ?_⟩
  rw [List.getElem?_eq_none (by simp; omega)]
  simp

/-- An insertion was there before the last change, or the last change made it. -/
theorem InsertedAt.before_or_last (h : InsertedAt (log ++ [change]) column i) :
    (InsertedAt log column i ∧ change ≠ .drop column) ∨
      (i = log.length ∧ held log column = none ∧ ∃ value, change = .put column value) := by
  have hlength := h.lt_length
  rw [List.length_append, List.length_singleton] at hlength
  obtain ⟨⟨value, hput⟩, hnew, hkept⟩ := h
  rcases Nat.lt_or_eq_of_le (Nat.lt_succ_iff.mp hlength) with hi | rfl
  · refine .inl ⟨⟨⟨value, ?_⟩, ?_, fun j hj hdrop => hkept j hj ?_⟩, fun hdrop => ?_⟩
    · rwa [List.getElem?_append_left hi] at hput
    · rwa [List.take_append_of_le_length (Nat.le_of_lt hi)] at hnew
    · rw [List.getElem?_append_left (List.getElem?_eq_some_iff.mp hdrop).1, hdrop]
    · exact hkept log.length hi (by simp [hdrop])
  · refine .inr ⟨rfl, ?_, value, ?_⟩
    · simpa using hnew
    · simpa using hput

/-- A column that was inserted and not removed is still held. -/
theorem InsertedAt.held_ne_none (h : InsertedAt log column i) : held log column ≠ none := by
  induction log using List.reverseRecOn with
  | nil => exact absurd h.lt_length (Nat.not_lt_zero i)
  | append_singleton log change ih =>
    rw [held_append_singleton]
    rcases h.before_or_last with ⟨hlog, hchange⟩ | ⟨-, -, value, rfl⟩
    · by_cases hcolumn : change.column = column
      · cases change with
        | put c value => simp [hcolumn, Change.value?]
        | drop c => exact absurd (congrArg Change.drop hcolumn) hchange
      · rw [if_neg hcolumn]
        exact ih hlog
    · simp [Change.column, Change.value?]

/-- A change does not insert a column that is there already. -/
theorem InsertedAt.of_append (h : InsertedAt (log ++ [change]) column i)
    (hheld : held log column ≠ none) : InsertedAt log column i := by
  rcases h.before_or_last with ⟨hlog, -⟩ | ⟨-, hnew, -⟩
  · exact hlog
  · exact absurd hnew hheld

theorem leftBy_empty : LeftBy [] empty :=
  ⟨List.nodup_nil, fun _ => rfl, fun _ h => absurd h List.not_mem_nil, List.Pairwise.nil⟩

theorem LeftBy.held_eq_none (h : LeftBy log r) : held log k = none ↔ k ∉ r.columns := by
  rw [← h.get?_eq, get?_eq_none]

theorem LeftBy.held_ne_none (h : LeftBy log r) (hk : k ∈ r.columns) : held log k ≠ none :=
  mt h.held_eq_none.mp (not_not.mpr hk)

/-- The columns that are there already keep their order whatever is set next. -/
theorem LeftBy.ordered_append (h : LeftBy log r) (change : Change) :
    r.columns.Pairwise fun c c' => ∀ i j, InsertedAt (log ++ [change]) c i →
      InsertedAt (log ++ [change]) c' j → i < j := by
  refine h.ordered.imp_of_mem fun hc hc' horder i j hi hj => ?_
  exact horder i j (hi.of_append (h.held_ne_none hc)) (hj.of_append (h.held_ne_none hc'))

theorem LeftBy.put (h : LeftBy log r) (column : String) (value : Value) :
    LeftBy (log ++ [.put column value]) (r.set column value) where
  nodup := nodup_columns _
  get?_eq k := by
    rw [get?_set, held_append_singleton, h.get?_eq]
    by_cases hk : k = column
    · simp [hk, Change.column, Change.value?]
    · simp [hk, Change.column, Ne.symm hk]
  inserted k hk := by
    by_cases hmem : k ∈ r.columns
    · obtain ⟨i, hi⟩ := h.inserted k hmem
      exact ⟨i, hi.append_singleton (by simp)⟩
    · obtain rfl : k = column := by
        rw [columns_set] at hk
        split at hk
        · exact absurd hk hmem
        · simpa [hmem] using hk
      exact ⟨_, insertedAt_append_put (h.held_eq_none.mpr hmem) value⟩
  ordered := by
    rw [columns_set]
    split
    · exact h.ordered_append _
    · next hnotMem =>
      -- The new column comes last: what was there before was inserted within the log, the new
      -- column at its end.
      refine List.pairwise_append.mpr ⟨h.ordered_append _, List.pairwise_singleton _ _, ?_⟩
      intro c hc c' hc' i j hi hj
      obtain rfl := List.mem_singleton.mp hc'
      rcases hj.before_or_last with ⟨hj, -⟩ | ⟨rfl, -⟩
      · exact absurd (h.held_eq_none.mpr hnotMem) hj.held_ne_none
      · exact (hi.of_append (h.held_ne_none hc)).lt_length

theorem LeftBy.drop (h : LeftBy log r) (column : String) :
    LeftBy (log ++ [.drop column]) (r.erase column) where
  nodup := nodup_columns _
  get?_eq k := by
    rw [get?_erase, held_append_singleton, h.get?_eq]
    by_cases hk : k = column
    · simp [hk, Change.column, Change.value?]
    · simp [hk, Change.column, Ne.symm hk]
  inserted k hk := by
    rw [columns_erase] at hk
    obtain ⟨hmem, hne⟩ := List.mem_filter.mp hk
    obtain ⟨i, hi⟩ := h.inserted k hmem
    refine ⟨i, hi.append_singleton ?_⟩
    rintro ⟨⟩
    simp at hne
  ordered := by
    rw [columns_erase]
    exact (h.ordered_append _).filter _

/-- The changes that set entries one after another. -/
def puts (entries : List (String × Value)) : List Change := entries.map fun e => .put e.1 e.2

/-- The changes that remove columns one after another. -/
def drops (columns : List String) : List Change := columns.map .drop

theorem LeftBy.puts (h : LeftBy log r) (entries : List (String × Value)) :
    LeftBy (log ++ Row.puts entries) (r.setAll entries) := by
  induction entries generalizing log r with
  | nil => simpa [Row.puts, setAll] using h
  | cons e entries ih =>
    have hrest := ih (h.put e.1 e.2)
    rwa [List.append_assoc] at hrest

theorem LeftBy.drops (h : LeftBy log r) (columns : List String) :
    LeftBy (log ++ Row.drops columns) (columns.foldl erase r) := by
  induction columns generalizing log r with
  | nil => simpa [Row.drops] using h
  | cons column columns ih =>
    have hrest := ih (h.drop column)
    rwa [List.append_assoc] at hrest

end Logs

/-- The entries that the members of an untyped object are read as. -/
def ReadFromJson (members : List (String × Json)) (entries : List (String × Value)) : Prop :=
  List.Forall₂ (fun m e => m.1 = e.1 ∧ Value.ofJson? m.2 = some e.2) members entries

/-- The entries that the members of a document are read as. -/
def ReadFromDocument (members : List (Option String × Json.Document))
    (entries : List (String × Value)) : Prop :=
  List.Forall₂ (fun m e => m.1 = some e.1 ∧ Value.ofDocument? m.2 = some e.2) members entries

theorem ofJson?_eq_some {j : Json} {r : Row} :
    ofJson? j = some r ↔
      ∃ members entries,
        j = .object members ∧ ReadFromJson members entries ∧ r = ofList entries := by
  have hmember : ∀ (m : String × Json) (e : String × Value),
      (Value.ofJson? m.2).map (m.1, ·) = some e ↔ m.1 = e.1 ∧ Value.ofJson? m.2 = some e.2 := by
    intro m e
    cases Value.ofJson? m.2 <;> simp [Prod.ext_iff]
  cases j with
  | object members =>
    simp only [ofJson?, Option.map_eq_some_iff, mapM_eq_some, hmember, Json.object.injEq]
    constructor
    · rintro ⟨entries, hread, rfl⟩
      exact ⟨members, entries, rfl, hread, rfl⟩
    · rintro ⟨_, entries, rfl, hread, rfl⟩
      exact ⟨entries, hread, rfl⟩
  | _ => simp [ofJson?]

theorem ofDocument?_eq_some {d : Json.Document} {r : Row} :
    ofDocument? d = some r ↔
      ∃ members entries, d = .object members ∧ ReadFromDocument members entries ∧
        r = ofList entries := by
  have hmember : ∀ (m : Option String × Json.Document) (e : String × Value),
      (do let key ← m.1; let value ← Value.ofDocument? m.2; return (key, value)) = some e ↔
        m.1 = some e.1 ∧ Value.ofDocument? m.2 = some e.2 := by
    intro m e
    cases m.1 <;> cases Value.ofDocument? m.2 <;> simp [Prod.ext_iff]
  cases d with
  | object members =>
    simp only [ofDocument?, Option.map_eq_some_iff, mapM_eq_some, hmember,
      Json.Document.object.injEq]
    constructor
    · rintro ⟨entries, hread, rfl⟩
      exact ⟨members, entries, rfl, hread, rfl⟩
    · rintro ⟨_, entries, rfl, hread, rfl⟩
      exact ⟨entries, hread, rfl⟩
  | _ => simp [ofDocument?]

/-- How a row comes about, with the log of what is set and removed on the way: a merge sets what
the other row holds, and a filter removes what is not kept. -/
inductive Made : List Change → Row → Prop
  | new : Made [] empty
  | collected (entries : List (String × Value)) : Made (puts entries) (ofList entries)
  | fromJson {members : List (String × Json)} {entries : List (String × Value)} {r : Row}
      (h : ofJson? (.object members) = some r) (hread : ReadFromJson members entries) :
      Made (puts entries) r
  | fromText {s : String} {members : List (Option String × Json.Document)}
      {entries : List (String × Value)} {r : Row} (h : parse? s = some r)
      (hdocument : Json.Document.read? s = some (.object members))
      (hread : ReadFromDocument members entries) : Made (puts entries) r
  | set {log : List Change} {r : Row} (h : Made log r) (column : String) (value : Value) :
      Made (log ++ [.put column value]) (r.set column value)
  | erase {log : List Change} {r : Row} (h : Made log r) (column : String) :
      Made (log ++ [.drop column]) (r.erase column)
  | filter {log : List Change} {r : Row} (h : Made log r) (keep : String → Value → Bool) :
      Made (log ++ drops (r.unkept keep)) (r.filter keep)
  | merge {log log' : List Change} {r r' : Row} (h : Made log r) (h' : Made log' r') :
      Made (log ++ puts r'.entries) (r.merge r')

theorem exists_made_of_ofJson? {j : Json} {r : Row} (h : ofJson? j = some r) :
    ∃ log, Made log r := by
  obtain ⟨members, entries, rfl, hread, -⟩ := ofJson?_eq_some.mp h
  exact ⟨_, .fromJson h hread⟩

theorem exists_made_of_parse? {s : String} {r : Row} (h : parse? s = some r) :
    ∃ log, Made log r := by
  obtain ⟨d, hdocument, hd⟩ := Option.bind_eq_some_iff.mp h
  obtain ⟨members, entries, rfl, hread, -⟩ := ofDocument?_eq_some.mp hd
  exact ⟨_, .fromText h hdocument hread⟩

theorem leftBy_ofList (entries : List (String × Value)) :
    LeftBy (puts entries) (ofList entries) :=
  leftBy_empty.puts entries

/-- A row is what its log leaves, however it was made. -/
theorem Made.leftBy {log : List Change} {r : Row} (h : Made log r) : LeftBy log r := by
  induction h with
  | new => exact leftBy_empty
  | collected entries => exact leftBy_ofList entries
  | fromJson h hread =>
    have hr := h.symm.trans (ofJson?_eq_some.mpr ⟨_, _, rfl, hread, rfl⟩)
    exact Option.some.inj hr ▸ leftBy_ofList _
  | fromText h hdocument hread =>
    have hr := ofDocument?_eq_some.mpr ⟨_, _, rfl, hread, rfl⟩
    rw [parse?, hdocument, Option.bind_some, hr] at h
    exact Option.some.inj h ▸ leftBy_ofList _
  | set _ column value ih => exact ih.put column value
  | erase _ column ih => exact ih.drop column
  | filter _ keep ih =>
    rw [filter_eq_foldl_erase]
    exact ih.drops _
  | @merge _ _ _ r' _ _ ih _ => exact ih.puts r'.entries

/-- Rows are maps in the order of insertion over every history: they are what their logs leave,
removing and filtering keep the order of the rest, and merging is the union in which the other row
wins, with its new columns last. -/
theorem rows_left_by_histories :
    (∀ log r, Made log r → LeftBy log r ∧
      (∀ column, (r.erase column).columns = r.columns.filter (· != column)) ∧
      ∀ keep, (r.filter keep).columns = r.columns.filter fun k => (r.get? k).any (keep k)) ∧
    (∀ j r, ofJson? j = some r → ∃ log, Made log r) ∧
    (∀ s r, parse? s = some r → ∃ log, Made log r) ∧
    ∀ log log' r r', Made log r → Made log' r' →
      (∀ k, (r.merge r').get? k = (r'.get? k).or (r.get? k)) ∧
      (r.merge r').columns = r.columns ++ (r'.columns.filter fun k => k ∉ r.columns) ∧
      ∀ log'' r'', Made log'' r'' → (r.merge r').merge r'' = r.merge (r'.merge r'') := by
  refine ⟨fun log r h => ?_, fun _ _ => exists_made_of_ofJson?, fun _ _ => exists_made_of_parse?,
    fun log log' r r' h h' => ?_⟩
  · exact ⟨h.leftBy, columns_erase r, columns_filter r⟩
  · exact ⟨get?_merge r r', columns_merge r r', fun _ r'' _ => merge_assoc r r' r''⟩

/-- A column that was set again, removed and set once more stands last. -/
theorem rows_left_by_histories_users :
    let log : List Change := [.put "id" (.int 1), .put "name" .null, .put "id" (.int 2),
      .drop "id", .put "id" (.int 3)]
    let r : Row := { entries := [("name", .null), ("id", .int 3)] }
    let members : List (String × Json) := [("age", .int 9), ("name", .string "x")]
    let r' : Row := { entries := [("age", .int 9), ("name", .text "x")] }
    Made log r ∧ LeftBy log r ∧ (r.filter fun _ v => !v.isEmpty).columns = ["id"] ∧
      ofJson? (.object members) = some r' ∧ (∃ log', Made log' r') ∧
      parse? "\x7b\"age\":1,\"name\":\"x\",\"age\":9\x7d" = some r' ∧
      (r.merge r').columns = ["name", "id", "age"] ∧ (r.merge r').get? "name" = some (.text "x") ∧
      (r.merge r').merge r = r.merge (r'.merge r) := by
  intro log r members r'
  obtain ⟨hleft, hjson, htext, hmerge⟩ := rows_left_by_histories
  have hcollected := Made.collected [("id", .int 1), ("name", .null), ("id", .int 2)]
  have hmade : Made log r := (hcollected.erase "id").set "id" (.int 3)
  have hobject : ofJson? (.object members) = some r' := by rfl
  have hparse : parse? "\x7b\"age\":1,\"name\":\"x\",\"age\":9\x7d" = some r' := by
    decide +kernel
  obtain ⟨log', hmade'⟩ := hjson _ _ hobject
  obtain ⟨hget, hcolumns, hassoc⟩ := hmerge _ _ _ _ hmade hmade'
  refine ⟨hmade, (hleft _ _ hmade).1, ?_, hobject, htext _ _ hparse, hparse, ?_, ?_,
    hassoc _ _ hmade⟩
  · rw [(hleft _ _ hmade).2.2]
    rfl
  · rw [hcolumns]
    rfl
  · rw [hget]
    rfl

end Row

end TableAccess
