import TableAccess.Proofs.FilterStages
import TableAccess.Proofs.MemberPass
import TableAccess.Proofs.ReadableLimits

/-!
# Which of several errors is reported

Untyped parameters are read in the order of their names, and only what was read as a whole is made
into a selection, the table first, then the filter of rows and then that of groups. `Reports` says
without the functions which error is reported, or that none is; for all data it is what
`compileJson` does.
-/
namespace TableAccess

/-- The kind of the error that something failed with. -/
def errorKind? {α : Type} : Except Error α → Option ErrorKind
  | .ok _ => none
  | .error e => some e.kind

theorem ParamKey.name_trichotomy (k l : ParamKey) :
    k.name < l.name ∨ k = l ∨ l.name < k.name := by
  by_cases hlt : k.name < l.name
  · exact .inl hlt
  · by_cases hgt : l.name < k.name
    · exact .inr (.inr hgt)
    · have hname := String.le_antisymm (String.not_lt.mp hgt) (String.not_lt.mp hlt)
      refine .inr (.inl (Option.some.inj ?_))
      rw [← ofName?_name k, hname, ofName?_name]

namespace FetchParams

/-- An array of texts. -/
inductive IsTextList : Json → Prop
  | texts (ss : List String) : IsTextList (.array (ss.map .string))

/-- What cannot be read as a parameter, and the kind of the error. Anything is read as the truth
value that asks for distinct rows. -/
inductive IsMalformed : ParamKey → Json → ErrorKind → Prop
  | columns {j : Json} (h : ¬ IsTextList j) : IsMalformed .columns j .badColsParam
  | grouping {j : Json} (h : ¬ IsTextList j) : IsMalformed .grouping j .badGroupByParam
  | ordering {j : Json} (h : ¬ IsTextList j) : IsMalformed .ordering j .badOrderByParam
  | rowFilter {j : Json} (h : ¬ Grammar.IsReadable j) : IsMalformed .rowFilter j .badWhereParam
  | groupFilter {j : Json} (h : ¬ Grammar.IsReadable j) :
    IsMalformed .groupFilter j .badHavingParam
  | limit {j : Json} (h : ¬ IsLimit j) : IsMalformed .limit j .badLimitParam
  | offset {j : Json} (h : ¬ IsLimit j) : IsMalformed .offset j .badLimitParam

/-- What was given for a filter, if anything, is one. -/
def GivesFilter (given : Option Json) : Prop := ∀ j, given = some j → Grammar.IsFilter j

def AllReadable (given : ParamKey → Option Json) : Prop :=
  ∀ key j kind, given key = some j → ¬ IsMalformed key j kind

/-- The kind of the error that compiling untyped data reports, or none. -/
inductive Reports (disallowed : List ParamKey) (table : String) : Json → Option ErrorKind → Prop
  | notAnObject {j : Json} (h : ∀ members, j ≠ .object members) :
    Reports disallowed table j (some .badFetchParams)
  | malformed {members : List (String × Json)} {key : ParamKey} {j : Json} {kind : ErrorKind}
      (hkey : given disallowed members key = some j) (h : IsMalformed key j kind)
      (hfirst : ∀ key' j' kind', key'.name < key.name →
        given disallowed members key' = some j' → ¬ IsMalformed key' j' kind') :
    Reports disallowed table (.object members) (some kind)
  | noTable {members : List (String × Json)} (hread : AllReadable (given disallowed members))
      (htable : Text.isAllBlank table = true) :
    Reports disallowed table (.object members) (some .tableNameNotConfigured)
  | rowFilter {members : List (String × Json)} (hread : AllReadable (given disallowed members))
      (htable : Text.isAllBlank table = false)
      (hrows : ¬ GivesFilter (given disallowed members .rowFilter)) :
    Reports disallowed table (.object members) (some .badWhereParam)
  | groupFilter {members : List (String × Json)} (hread : AllReadable (given disallowed members))
      (htable : Text.isAllBlank table = false)
      (hrows : GivesFilter (given disallowed members .rowFilter))
      (hgroups : ¬ GivesFilter (given disallowed members .groupFilter)) :
    Reports disallowed table (.object members) (some .badHavingParam)
  | compiled {members : List (String × Json)} (hread : AllReadable (given disallowed members))
      (htable : Text.isAllBlank table = false)
      (hrows : GivesFilter (given disallowed members .rowFilter))
      (hgroups : GivesFilter (given disallowed members .groupFilter)) :
    Reports disallowed table (.object members) none

section Reading

variable {kind : ErrorKind} {key : ParamKey} {j : Json} {p : FetchParams}

theorem exists_textList : (∃ ss, textList kind key j = .ok ss) ↔ IsTextList j := by
  constructor
  · rintro ⟨ss, hss⟩
    cases j with
    | array items =>
      have hitems : items = ss.map .string := by
        refine List.forall₂_eq_eq_eq ▸ List.forall₂_map_right_iff.mpr ?_
        refine (mapM_eq_ok.mp hss).imp fun j s hj => ?_
        split at hj
        · cases hj
          rfl
        · cases hj
      rw [hitems]
      exact .texts ss
    | _ => cases hss
  · rintro ⟨ss⟩
    refine ⟨ss, mapM_eq_ok.mpr ?_⟩
    rw [List.forall₂_map_left_iff]
    exact List.forall₂_same.mpr fun s _ => rfl

theorem kind_of_textList_eq_error {e : Error} (h : textList kind key j = .error e) :
    e.kind = kind := by
  unfold textList at h
  split at h
  · obtain ⟨j, -, hj⟩ := exists_mem_of_mapM_eq_error h
    split at hj
    · cases hj
    · cases hj
      rfl
  · cases h
    rfl

theorem exists_limitOfJson : (∃ n, limitOfJson key j = .ok n) ↔ IsLimit j := by
  rw [← limit?_ne_none_iff]
  unfold limitOfJson
  cases limit? j <;> simp

theorem kind_of_limitOfJson_eq_error {e : Error} (h : limitOfJson key j = .error e) :
    e.kind = .badLimitParam := by
  unfold limitOfJson at h
  split at h
  · cases h
  · cases h
    rfl

/-- A reader that is right about what it reads, and fails with one kind, checks for that. -/
theorem errorKind?_map_eq_some {α β : Type} {r : Except Error α} {f : α → β} {P : Prop}
    (kind' : ErrorKind) (hok : (∃ a, r = .ok a) ↔ P) (hkind : ∀ e, r = .error e → e.kind = kind) :
    errorKind? (r.map f) = some kind' ↔ ¬ P ∧ kind' = kind := by
  rw [← hok]
  cases r with
  | ok a => simp [Except.map, errorKind?]
  | error e => simp [Except.map, errorKind?, hkind e rfl, eq_comm]

theorem errorKind?_readInto :
    errorKind? (p.readInto j key) = some kind ↔ IsMalformed key j kind := by
  cases key with
  | distinct =>
    simp only [readInto, errorKind?, reduceCtorEq, false_iff]
    rintro ⟨⟩
  | columns =>
    rw [readInto, errorKind?_map_eq_some kind exists_textList fun _ => kind_of_textList_eq_error]
    exact ⟨fun ⟨h, hkind⟩ => hkind ▸ .columns h, fun (.columns h) => ⟨h, rfl⟩⟩
  | grouping =>
    rw [readInto, errorKind?_map_eq_some kind exists_textList fun _ => kind_of_textList_eq_error]
    exact ⟨fun ⟨h, hkind⟩ => hkind ▸ .grouping h, fun (.grouping h) => ⟨h, rfl⟩⟩
  | ordering =>
    rw [readInto, errorKind?_map_eq_some kind exists_textList fun _ => kind_of_textList_eq_error]
    exact ⟨fun ⟨h, hkind⟩ => hkind ▸ .ordering h, fun (.ordering h) => ⟨h, rfl⟩⟩
  | rowFilter =>
    rw [readInto, errorKind?_map_eq_some kind Filter.exists_ofJson
      fun _ => Filter.kind_of_ofJson_eq_error]
    exact ⟨fun ⟨h, hkind⟩ => hkind ▸ .rowFilter h, fun (.rowFilter h) => ⟨h, rfl⟩⟩
  | groupFilter =>
    rw [readInto, errorKind?_map_eq_some kind Filter.exists_ofJson
      fun _ => Filter.kind_of_ofJson_eq_error]
    exact ⟨fun ⟨h, hkind⟩ => hkind ▸ .groupFilter h, fun (.groupFilter h) => ⟨h, rfl⟩⟩
  | limit =>
    rw [readInto, errorKind?_map_eq_some kind exists_limitOfJson
      fun _ => kind_of_limitOfJson_eq_error]
    exact ⟨fun ⟨h, hkind⟩ => hkind ▸ .limit h, fun (.limit h) => ⟨h, rfl⟩⟩
  | offset =>
    rw [readInto, errorKind?_map_eq_some kind exists_limitOfJson
      fun _ => kind_of_limitOfJson_eq_error]
    exact ⟨fun ⟨h, hkind⟩ => hkind ▸ .offset h, fun (.offset h) => ⟨h, rfl⟩⟩

variable {given : ParamKey → Option Json}

theorem not_isMalformed_of_foldlM {keys : List ParamKey} {q : FetchParams}
    (h : keys.foldlM (fun p key => (given key).elim (.ok p) (p.readInto · key)) p = .ok q)
    (hkey : key ∈ keys) (hj : given key = some j) : ¬ IsMalformed key j kind := by
  intro hmalformed
  obtain ⟨q, q', hread⟩ := foldlM_eq_ok h key hkey
  rw [hj] at hread
  have hkind := (errorKind?_readInto (p := q)).mpr hmalformed
  rw [show q.readInto j key = .ok q' from hread] at hkind
  cases hkind

theorem allReadable_of_ofGiven (h : ofGiven given = .ok p) : AllReadable given := by
  rw [ofGiven_eq_foldlM] at h
  exact fun key j kind hj => not_isMalformed_of_foldlM h (mem_readOrder key) hj

/-- The keys before the one that reading fails at are those with smaller names. -/
theorem malformed_of_ofGiven {e : Error} (h : ofGiven given = .error e) :
    ∃ key j, given key = some j ∧ IsMalformed key j e.kind ∧
      ∀ key' j' kind', key'.name < key.name → given key' = some j' →
        ¬ IsMalformed key' j' kind' := by
  rw [ofGiven_eq_foldlM] at h
  obtain ⟨before, key, after, p, horder, hbefore, hkey⟩ := foldlM_eq_error h
  cases hj : given key with
  | none =>
    rw [hj] at hkey
    cases hkey
  | some j =>
    rw [hj] at hkey
    have hfailed : p.readInto j key = .error e := hkey
    refine ⟨key, j, hj, errorKind?_readInto.mp (by rw [hfailed]; rfl), ?_⟩
    intro key' j' kind' hlt hj' hmalformed
    have hmem : key' ∈ before := by
      have hsorted := readOrder_sorted
      have hkey' := mem_readOrder key'
      rw [horder] at hsorted hkey'
      rcases List.mem_append.mp hkey' with hmem | hmem
      · exact hmem
      · rcases List.mem_cons.mp hmem with rfl | hmem
        · exact absurd hlt (String.lt_irrefl _)
        · have hgt := List.rel_of_pairwise_cons (List.pairwise_append.mp hsorted).2.1 hmem
          exact absurd hlt (String.lt_asymm hgt)
    exact not_isMalformed_of_foldlM hbefore hmem hj' hmalformed

end Reading

section Compiling
variable {c : Clause} {t : Target} {p : FetchParams} {table : String}

theorem givesFilter_iff {x : Option Json} {y : Option Filter}
    (h : x.mapM (Filter.ofJson c) = .ok y) : GivesFilter x ↔ ∀ f ∈ y, f.IsSound := by
  cases x with
  | none =>
    cases h
    simp [GivesFilter]
  | some j =>
    obtain ⟨f, hf, hy⟩ := bind_eq_ok.mp h
    cases hy
    simpa [GivesFilter] using Filter.isFilter_iff hf

theorem exists_taken (c : Clause) (t : Target) (given : Option Filter) (s : Sql.Select)
    (g : Sql.Expr → Sql.Select) :
    (∃ s', given.elim (.ok s) (fun f => (f.toExpr t.quote c).map g) = .ok s') ↔
      ∀ f ∈ given, f.IsSound := by
  cases given with
  | none => simp
  | some f =>
    simp only [Option.elim_some, map_eq_ok, Option.mem_def, Option.some.injEq, forall_eq',
      ← Filter.exists_toExpr t.quote c]
    exact ⟨fun ⟨_, e, he, _⟩ => ⟨e, he⟩, fun ⟨e, he⟩ => ⟨_, e, he, rfl⟩⟩

theorem kind_of_taken_eq_error {given : Option Filter} {s : Sql.Select}
    {g : Sql.Expr → Sql.Select} {e : Error}
    (h : given.elim (.ok s) (fun f => (f.toExpr t.quote c).map g) = .error e) :
    e.kind = c.errorKind := by
  cases given with
  | none => cases h
  | some f => exact Filter.kind_of_toExpr_eq_error (map_eq_error.mp h)

/-- Only the two filters can fail once there is a table, the one of rows first. -/
theorem exists_selection_eq (p : FetchParams) (t : Target)
    (htable : Text.isAllBlank table = false) :
    ∃ (s : Sql.Select) (next last : Sql.Select → Sql.Select), p.selection t [] table =
      (do
        let rows ← p.apply t .rowFilter s
        let groups ← p.apply t .groupFilter (next rows)
        return last groups) := by
  unfold selection
  rw [htable]
  exact ⟨_, _, _, rfl⟩

theorem errorKind?_map_build (r : Except Error Sql.Select) :
    errorKind? (r.map Sql.Select.build) = errorKind? r := by
  cases r <;> rfl

/-- How a selection ends once there is a table. -/
theorem errorKind?_compile (p : FetchParams) (t : Target) (htable : Text.isAllBlank table = false) :
    let kind := errorKind? (p.compile t [] table)
    (¬ (∀ f ∈ p.rowFilter, f.IsSound) ∧ kind = some .badWhereParam) ∨
      (∀ f ∈ p.rowFilter, f.IsSound) ∧
        (¬ (∀ f ∈ p.groupFilter, f.IsSound) ∧ kind = some .badHavingParam ∨
          (∀ f ∈ p.groupFilter, f.IsSound) ∧ kind = none) := by
  obtain ⟨s, next, last, hselection⟩ := p.exists_selection_eq t htable
  have hrows := exists_taken .rowFilter t p.rowFilter s s.andWhere
  simp only [compile_eq, errorKind?_map_build, hselection, ← hrows]
  cases hrow : p.apply t .rowFilter s with
  | error e =>
    have hkind : e.kind = .badWhereParam := kind_of_taken_eq_error hrow
    left
    refine ⟨?_, congrArg some hkind⟩
    rintro ⟨s', hs'⟩
    cases hrow.symm.trans hs'
  | ok rows =>
    have hgroups := exists_taken .groupFilter t p.groupFilter (next rows) (next rows).andHaving
    rw [← hgroups]
    refine .inr ⟨⟨rows, hrow⟩, ?_⟩
    cases hgroup : p.apply t .groupFilter (next rows) with
    | error e =>
      have hkind : e.kind = .badHavingParam := kind_of_taken_eq_error hgroup
      left
      refine ⟨?_, ?_⟩
      · rintro ⟨s', hs'⟩
        cases hgroup.symm.trans hs'
      · simpa [bind, Except.bind, hgroup, errorKind?] using hkind
    | ok groups =>
      refine .inr ⟨⟨groups, hgroup⟩, ?_⟩
      simp [bind, Except.bind, hgroup, pure, Except.pure, errorKind?]

end Compiling

variable {t : Target} {disallowed : List ParamKey} {table : String} {j : Json}

/-- Compiling reports what is to be reported. -/
theorem reports_compileJson (t : Target) (disallowed : List ParamKey) (table : String) (j : Json) :
    Reports disallowed table j (errorKind? (compileJson t disallowed table j)) := by
  cases j with
  | object members =>
    rw [compileJson_eq]
    cases hread : ofJson disallowed (.object members) with
    | error e =>
      rw [ofJson_object] at hread
      obtain ⟨key, j, hj, hmalformed, hfirst⟩ := malformed_of_ofGiven hread
      exact .malformed hj hmalformed hfirst
    | ok p =>
      have hreadable : AllReadable (given disallowed members) := allReadable_of_ofGiven hread
      have hreads : ReadsAs (given disallowed members) p := ofGiven_eq_ok.mp hread
      -- What was read has nothing under the disallowed keys, so none are left to pass over.
      have hcompile := p.compile_without t disallowed table
      rw [without_of_ofJson hread] at hcompile
      change Reports disallowed table _ (errorKind? (p.compile t disallowed table))
      rw [hcompile]
      cases htable : Text.isAllBlank table with
      | true =>
        have hkind : errorKind? (p.compile t [] table) = some .tableNameNotConfigured := by
          rw [compile_eq, selection, htable]
          rfl
        rw [hkind]
        exact .noTable hreadable htable
      | false =>
        have hreports := p.errorKind?_compile t htable
        rw [← givesFilter_iff hreads.rowFilter, ← givesFilter_iff hreads.groupFilter] at hreports
        rcases hreports with ⟨hrows, hkind⟩ | ⟨hrows, ⟨hgroups, hkind⟩ | ⟨hgroups, hkind⟩⟩
        · exact hkind ▸ .rowFilter hreadable htable hrows
        · exact hkind ▸ .groupFilter hreadable htable hrows hgroups
        · exact hkind ▸ .compiled hreadable htable hrows hgroups
  | _ => exact .notAnObject fun members h => by cases h

theorem IsMalformed.unique {key : ParamKey} {kind kind' : ErrorKind} (h : IsMalformed key j kind)
    (h' : IsMalformed key j kind') : kind = kind' := by
  cases h <;> cases h' <;> rfl

/-- One thing is to be reported for all data. -/
theorem Reports.unique {kind kind' : Option ErrorKind} (h : Reports disallowed table j kind)
    (h' : Reports disallowed table j kind') : kind = kind' := by
  cases h with
  | notAnObject h =>
    cases h' with
    | notAnObject => rfl
    | _ => exact absurd rfl (h _)
  | @malformed _ key _ _ hkey hmalformed hfirst =>
    cases h' with
    | notAnObject h' => exact absurd rfl (h' _)
    | @malformed _ key' _ _ hkey' hmalformed' hfirst' =>
      rcases ParamKey.name_trichotomy key key' with hlt | rfl | hgt
      · exact absurd hmalformed (hfirst' _ _ _ hlt hkey)
      · cases hkey.symm.trans hkey'
        exact congrArg some (hmalformed.unique hmalformed')
      · exact absurd hmalformed' (hfirst _ _ _ hgt hkey')
    | noTable hread | rowFilter hread | groupFilter hread | compiled hread =>
      exact absurd hmalformed (hread _ _ _ hkey)
  | noTable hread htable =>
    cases h' with
    | notAnObject h' => exact absurd rfl (h' _)
    | malformed hkey hmalformed => exact absurd hmalformed (hread _ _ _ hkey)
    | noTable => rfl
    | rowFilter _ htable' | groupFilter _ htable' | compiled _ htable' =>
      cases htable.symm.trans htable'
  | rowFilter hread htable hrows =>
    cases h' with
    | notAnObject h' => exact absurd rfl (h' _)
    | malformed hkey hmalformed => exact absurd hmalformed (hread _ _ _ hkey)
    | noTable _ htable' => cases htable.symm.trans htable'
    | rowFilter => rfl
    | groupFilter _ _ hrows' | compiled _ _ hrows' => exact absurd hrows' hrows
  | groupFilter hread htable hrows hgroups =>
    cases h' with
    | notAnObject h' => exact absurd rfl (h' _)
    | malformed hkey hmalformed => exact absurd hmalformed (hread _ _ _ hkey)
    | noTable _ htable' => cases htable.symm.trans htable'
    | rowFilter _ _ hrows' => exact absurd hrows hrows'
    | groupFilter => rfl
    | compiled _ _ _ hgroups' => exact absurd hgroups' hgroups
  | compiled hread htable hrows hgroups =>
    cases h' with
    | notAnObject h' => exact absurd rfl (h' _)
    | malformed hkey hmalformed => exact absurd hmalformed (hread _ _ _ hkey)
    | noTable _ htable' => cases htable.symm.trans htable'
    | rowFilter _ _ hrows' => exact absurd hrows hrows'
    | groupFilter _ _ _ hgroups' => exact absurd hgroups hgroups'
    | compiled => rfl

/-- Untyped data compile to a statement, or fail with the kind of the first thing that is wrong with
them in one fixed order, in which the members of an object stand. -/
theorem errors_ordered (t : Target) (disallowed : List ParamKey) (table : String) (j : Json)
    (kind : Option ErrorKind) :
    (errorKind? (compileJson t disallowed table j) = kind ↔ Reports disallowed table j kind) ∧
      ∀ members, j = .object members → Json.Ordered members →
        ofJson disallowed j = members.foldlM (readMember disallowed) {} := by
  refine ⟨?_, ?_⟩
  · constructor
    · rintro rfl
      exact reports_compileJson t disallowed table j
    · intro h
      exact (reports_compileJson t disallowed table j).unique h
  · rintro members rfl hordered
    exact ofJson_eq_foldlM disallowed hordered

/-- Of several errors the one under the first name is reported, unless the name may not be given. -/
example :
    errorKind? (compileJson Dialect.mysql.target [.columns] "" (.object
      [("cols", .null), ("having", .array [.null]), ("limit_size", .int (-1))])) =
        some .badHavingParam := by
  decide

end FetchParams

end TableAccess
