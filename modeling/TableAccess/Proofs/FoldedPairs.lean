import TableAccess.Proofs.Columns
import TableAccess.Proofs.Fetches

/-!
# Pairs of the first two columns

Fetching pairs asks for the first two columns only and folds the rows that come back into one row,
the text of the first entry being the column of the second. What the fold keeps is known from the
rows: every key where it came first, with the value that it came with last.
-/
namespace TableAccess

variable {σ : Type}

/-- The first two entries of each row, in order. -/
def LeadingEntries (rows : List Row) (entries : List (Value × Value)) : Prop :=
  List.Forall₂ (fun row e => ∃ rest, row.values = e.1 :: e.2 :: rest) rows entries

namespace LeadingEntries
variable {rows : List Row} {entries entries' : List (Value × Value)}

theorem two_le_size (h : LeadingEntries rows entries) : ∀ row ∈ rows, 2 ≤ row.size := by
  induction h with
  | nil => simp
  | cons hrow _ ih =>
    obtain ⟨rest, hvalues⟩ := hrow
    refine List.forall_mem_cons.mpr ⟨?_, ih⟩
    rw [← Row.length_values, hvalues]
    simp

theorem unique (h : LeadingEntries rows entries) (h' : LeadingEntries rows entries') :
    entries = entries' := by
  induction h generalizing entries' with
  | nil =>
    cases h'
    rfl
  | cons hrow _ ih =>
    cases h' with
    | cons hrow' hrest =>
      obtain ⟨rest, hvalues⟩ := hrow
      obtain ⟨rest', hvalues'⟩ := hrow'
      rw [hvalues] at hvalues'
      injection hvalues' with hfirst htail
      injection htail with hsecond
      rw [Prod.ext hfirst hsecond, ih hrest]

end LeadingEntries

/-- The pairs that entries are folded into. -/
structure FoldedInto (entries : List (Value × Value)) (pairs : Row) : Prop where
  columns : pairs.columns = (entries.map (·.1.keyText)).eraseDups
  get? : ∀ k, pairs.get? k = (entries.reverse.find? (·.1.keyText == k)).map (·.2)

/-- The calls of fetching pairs, and the result. -/
inductive Model.PairsFetched (m : Model σ) (p : FetchParams) : List Call → Except Error Row → Prop
  | tooFewColumns {e : Error} (h : (p.columns.getD []).length < 2)
      (hkind : e.kind = .badFetchParams) : PairsFetched m p [] (.error e)
  | refused {e : Error} (h : 2 ≤ (p.columns.getD []).length)
      (hselection : p.selection m.gateway.target [] m.schema.name = .error e) :
    PairsFetched m p [] (.error e)
  | failed {c₁ c₂ : String} {others : List String} {s : Sql.Select} (e : Error)
      (hcolumns : p.columns = some (c₁ :: c₂ :: others))
      (hselection : p.selection m.gateway.target [] m.schema.name = .ok s) :
    PairsFetched m p [.query { s with columns := [c₁, c₂] }.build (.error e)] (.error e)
  | tooShort {c₁ c₂ : String} {others : List String} {s : Sql.Select} {rows : List Row} {e : Error}
      (hcolumns : p.columns = some (c₁ :: c₂ :: others))
      (hselection : p.selection m.gateway.target [] m.schema.name = .ok s)
      (hshort : ∃ row ∈ rows, row.size < 2) (hkind : e.kind = .decode) :
    PairsFetched m p [.query { s with columns := [c₁, c₂] }.build (.ok rows)] (.error e)
  | folded {c₁ c₂ : String} {others : List String} {s : Sql.Select} {rows : List Row}
      {entries : List (Value × Value)} {pairs : Row}
      (hcolumns : p.columns = some (c₁ :: c₂ :: others))
      (hselection : p.selection m.gateway.target [] m.schema.name = .ok s)
      (hentries : LeadingEntries rows entries) (hpairs : FoldedInto entries pairs) :
    PairsFetched m p [.query { s with columns := [c₁, c₂] }.build (.ok rows)] (.ok pairs)

namespace Row

theorem nth_eq_ok {row : Row} {i : Nat} {v : Value} :
    row.nth i = .ok v ↔ row.values[i]? = some v := by
  unfold nth
  cases row.values[i]? <;> simp

theorem kind_of_nth_eq_error {row : Row} {i : Nat} {e : Error} (h : row.nth i = .error e) :
    e.kind = .decode ∧ row.size ≤ i := by
  unfold nth at h
  cases hv : row.values[i]? with
  | some v => simp [hv] at h
  | none =>
    rw [hv] at h
    cases h
    exact ⟨rfl, by simpa [values, size] using hv⟩

end Row

namespace Model

theorem pairOf_eq_ok {row : Row} {pair : String × Value} :
    pairOf row = .ok pair ↔
      ∃ e : Value × Value, (∃ rest, row.values = e.1 :: e.2 :: rest) ∧
        pair = (e.1.keyText, e.2) := by
  simp only [pairOf, bind_eq_ok, Row.nth_eq_ok, pure, Except.pure, Except.ok.injEq]
  constructor
  · rintro ⟨key, hkey, value, hvalue, rfl⟩
    refine ⟨(key, value), ?_, rfl⟩
    rcases hvalues : row.values with _ | ⟨a, _ | ⟨b, rest⟩⟩
    · simp [hvalues] at hkey
    · simp [hvalues] at hvalue
    · rw [hvalues] at hkey hvalue
      cases hkey
      cases hvalue
      exact ⟨rest, rfl⟩
  · rintro ⟨e, ⟨rest, hvalues⟩, rfl⟩
    exact ⟨e.1, by simp [hvalues], e.2, by simp [hvalues], rfl⟩

theorem kind_of_pairOf_eq_error {row : Row} {e : Error} (h : pairOf row = .error e) :
    e.kind = .decode ∧ row.size < 2 := by
  rcases bind_eq_error.mp h with hkey | ⟨key, -, hrest⟩
  · obtain ⟨hkind, hsize⟩ := Row.kind_of_nth_eq_error hkey
    exact ⟨hkind, by omega⟩
  · rcases bind_eq_error.mp hrest with hvalue | ⟨value, -, hpure⟩
    · obtain ⟨hkind, hsize⟩ := Row.kind_of_nth_eq_error hvalue
      exact ⟨hkind, by omega⟩
    · cases hpure

/-- The pairs of rows are those of their leading entries. -/
theorem exists_entries_of_mapM {rows : List Row} {pairs : List (String × Value)}
    (h : rows.mapM pairOf = .ok pairs) :
    ∃ entries, LeadingEntries rows entries ∧
      pairs = entries.map fun e => (e.1.keyText, e.2) := by
  have hpairs := mapM_eq_ok.mp h
  clear h
  induction hpairs with
  | nil => exact ⟨[], .nil, rfl⟩
  | cons hpair _ ih =>
    obtain ⟨e, he, rfl⟩ := pairOf_eq_ok.mp hpair
    obtain ⟨entries, hentries, rfl⟩ := ih
    exact ⟨e :: entries, .cons he hentries, rfl⟩

theorem foldedInto_ofList (entries : List (Value × Value)) :
    FoldedInto entries (Row.ofList (entries.map fun e => (e.1.keyText, e.2))) where
  columns := by
    rw [Row.columns_ofList, List.map_map]
    rfl
  get? k := by
    rw [Row.get?_ofList, ← List.map_reverse, List.find?_map, Option.map_map]
    rfl

variable (m : Model σ) (p : FetchParams)

/-- What the rows of a fetch of pairs are made into. -/
def foldPairs (rows : List Row) : Except Error Row := (rows.mapM pairOf).map Row.ofList

theorem leadingColumns_two :
    (∃ e, leadingColumns p 2 "fetch_pairs" = .error e ∧ e.kind = .badFetchParams ∧
        (p.columns.getD []).length < 2) ∨
      ∃ c₁ c₂ others, p.columns = some (c₁ :: c₂ :: others) ∧
        leadingColumns p 2 "fetch_pairs" = .ok { p with columns := some [c₁, c₂] } := by
  unfold leadingColumns
  rcases hcolumns : p.columns with _ | _ | ⟨c₁, _ | ⟨c₂, others⟩⟩
  · exact .inl ⟨_, rfl, rfl, by simp⟩
  · exact .inl ⟨_, rfl, rfl, by simp⟩
  · exact .inl ⟨_, rfl, rfl, by simp⟩
  · refine .inr ⟨c₁, c₂, others, rfl, ?_⟩
    simp

theorem kind_of_foldPairs_eq_error {rows : List Row} {e : Error} (h : foldPairs rows = .error e) :
    e.kind = .decode ∧ ∃ row ∈ rows, row.size < 2 := by
  obtain ⟨row, hrow, hpair⟩ := exists_mem_of_mapM_eq_error (map_eq_error.mp h)
  obtain ⟨hkind, hsize⟩ := kind_of_pairOf_eq_error hpair
  exact ⟨hkind, row, hrow, hsize⟩

theorem foldedInto_of_foldPairs {rows : List Row} {pairs : Row} (h : foldPairs rows = .ok pairs) :
    ∃ entries, LeadingEntries rows entries ∧ FoldedInto entries pairs := by
  obtain ⟨keyed, hkeyed, rfl⟩ := map_eq_ok.mp h
  obtain ⟨entries, hentries, rfl⟩ := exists_entries_of_mapM hkeyed
  exact ⟨entries, hentries, foldedInto_ofList entries⟩

theorem plan_leadingColumns {c₁ c₂ : String} :
    m.plan { p with columns := some [c₁, c₂] } [] none =
      (p.selection m.gateway.target [] m.schema.name).map fun s =>
        { s with columns := [c₁, c₂] } := by
  have hselection := p.selection_withColumns m.gateway.target m.schema.name [c₁, c₂]
    (by simp)
  rw [plan, hselection]
  cases p.selection m.gateway.target [] m.schema.name <;> rfl

theorem makes_fetchPairs :
    Action.Makes (m.fetchPairs p) (m.recorded.fetchPairs p) (m.PairsFetched p) := by
  have hfold : ∀ {τ : Type} (rows : List Row), (do
      let pairs ← (Action.ofExcept (rows.mapM pairOf) : Action τ _)
      return Row.ofList pairs) = Action.ofExcept (foldPairs rows) := by
    intro τ rows
    unfold foldPairs
    cases rows.mapM pairOf <;> rfl
  unfold fetchPairs
  simp only [hfold]
  rcases leadingColumns_two p with ⟨e, he, hkind, hfew⟩ | ⟨c₁, c₂, others, hcolumns, hleading⟩
  · rw [he]
    refine (Action.makes_throw e).mono ?_
    rintro cs r ⟨rfl, rfl⟩
    exact .tooFewColumns hfew hkind
  · rw [hleading]
    refine (m.makes_decoded { p with columns := some [c₁, c₂] } [] none foldPairs).mono ?_
    intro cs r hfetched
    rw [plan_leadingColumns] at hfetched
    cases hfetched with
    | refused hplan =>
      exact .refused (by simp [hcolumns]) (map_eq_error.mp hplan)
    | failed hplan e =>
      obtain ⟨s, hs, rfl⟩ := map_eq_ok.mp hplan
      exact .failed e hcolumns hs
    | answered hplan rows =>
      obtain ⟨s, hs, rfl⟩ := map_eq_ok.mp hplan
      cases hpairs : foldPairs rows with
      | error e =>
        obtain ⟨hkind, hshort⟩ := kind_of_foldPairs_eq_error hpairs
        exact .tooShort hcolumns hs hshort hkind
      | ok pairs =>
        obtain ⟨entries, hentries, hfolded⟩ := foldedInto_of_foldPairs hpairs
        exact .folded hcolumns hs hentries hfolded

/-- Fetching pairs asks for the first two columns and nothing else, and folds what comes back, or
finds fault with it. -/
theorem pairs_folded (s : Session σ) :
    let result := (m.fetchPairs p).run s
    let calls := (m.recorded.fetchPairs p).callsIn s
    (m.recorded.fetchPairs p).run (s.recording []) = (result.1, result.2.recording calls) ∧
      m.PairsFetched p calls result.1 :=
  (m.makes_fetchPairs p).callsIn s

end Model

end TableAccess
