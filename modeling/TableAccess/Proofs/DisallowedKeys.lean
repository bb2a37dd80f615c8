import TableAccess.Proofs.Selections

/-!
# Parameters that the caller may not give

A parameter is disallowed in two places: untyped data are read without it, and a selection passes
it over. Whatever stands under a disallowed key, or under a key that is none, has no influence, and
reading first and compiling afterwards gives what compiling the untyped data gives.
-/
namespace TableAccess

theorem ParamKey.ofName?_name (key : ParamKey) : ofName? key.name = some key := by
  cases key <;> rfl

theorem ParamKey.ofName?_eq_some {s : String} {key : ParamKey} :
    ofName? s = some key ↔ s = key.name := by
  constructor
  · intro h
    have hname := List.find?_some (p := fun k : ParamKey => k.name == s) h
    exact (beq_iff_eq.mp hname).symm
  · rintro rfl
    exact ofName?_name key

namespace FetchParams

/-- What untyped data give for a parameter that may be given. -/
def given (disallowed : List ParamKey) (members : List (String × Json)) (key : ParamKey) :
    Option Json :=
  if disallowed.contains key then none else Json.find? key.name members

/-- The members that are read at all. -/
def readMembers (disallowed : List ParamKey) (members : List (String × Json)) :
    List (String × Json) :=
  members.filter fun m => (ParamKey.ofName? m.1).any fun key => !disallowed.contains key

/-- The parameters with some of them reset. -/
def without (p : FetchParams) (disallowed : List ParamKey) : FetchParams where
  distinct := if disallowed.contains .distinct then none else p.distinct
  columns := if disallowed.contains .columns then none else p.columns
  rowFilter := if disallowed.contains .rowFilter then none else p.rowFilter
  groupFilter := if disallowed.contains .groupFilter then none else p.groupFilter
  grouping := if disallowed.contains .grouping then none else p.grouping
  ordering := if disallowed.contains .ordering then none else p.ordering
  limit := if disallowed.contains .limit then none else p.limit
  offset := if disallowed.contains .offset then none else p.offset

/-- What is given for each parameter is read as the parameters. -/
structure ReadsAs (given : ParamKey → Option Json) (p : FetchParams) : Prop where
  columns : (given .columns).mapM (textList .badColsParam .columns) = .ok p.columns
  distinct : (given .distinct).map truthy = p.distinct
  grouping : (given .grouping).mapM (textList .badGroupByParam .grouping) = .ok p.grouping
  groupFilter : (given .groupFilter).mapM (Filter.ofJson .groupFilter) = .ok p.groupFilter
  offset : (given .offset).mapM (limitOfJson .offset) = .ok p.offset
  limit : (given .limit).mapM (limitOfJson .limit) = .ok p.limit
  ordering : (given .ordering).mapM (textList .badOrderByParam .ordering) = .ok p.ordering
  rowFilter : (given .rowFilter).mapM (Filter.ofJson .rowFilter) = .ok p.rowFilter

/-- The parameters that are read from what is given for each of them. -/
def ofGiven (given : ParamKey → Option Json) : Except Error FetchParams := do
  let columns ← (given .columns).mapM (textList .badColsParam .columns)
  let distinct := (given .distinct).map truthy
  let grouping ← (given .grouping).mapM (textList .badGroupByParam .grouping)
  let groupFilter ← (given .groupFilter).mapM (Filter.ofJson .groupFilter)
  let offset ← (given .offset).mapM (limitOfJson .offset)
  let limit ← (given .limit).mapM (limitOfJson .limit)
  let ordering ← (given .ordering).mapM (textList .badOrderByParam .ordering)
  let rowFilter ← (given .rowFilter).mapM (Filter.ofJson .rowFilter)
  return ⟨distinct, columns, rowFilter, groupFilter, grouping, ordering, limit, offset⟩

variable {disallowed : List ParamKey} {members : List (String × Json)} {p : FetchParams}

theorem ofJson_object (disallowed : List ParamKey) (members : List (String × Json)) :
    ofJson disallowed (.object members) = ofGiven (given disallowed members) := rfl

theorem ofGiven_eq_ok {given : ParamKey → Option Json} :
    ofGiven given = .ok p ↔ ReadsAs given p := by
  simp only [ofGiven, bind_eq_ok, pure, Except.pure, Except.ok.injEq]
  constructor
  · rintro ⟨columns, hcolumns, grouping, hgrouping, groupFilter, hgroupFilter, offset, hoffset,
      limit, hlimit, ordering, hordering, rowFilter, hrowFilter, rfl⟩
    exact ⟨hcolumns, rfl, hgrouping, hgroupFilter, hoffset, hlimit, hordering, hrowFilter⟩
  · rintro ⟨hcolumns, hdistinct, hgrouping, hgroupFilter, hoffset, hlimit, hordering, hrowFilter⟩
    refine ⟨_, hcolumns, _, hgrouping, _, hgroupFilter, _, hoffset, _, hlimit, _, hordering, _,
      hrowFilter, ?_⟩
    rw [hdistinct]

theorem find?_readMembers (disallowed : List ParamKey) (members : List (String × Json))
    (key : ParamKey) :
    Json.find? key.name (readMembers disallowed members) = given disallowed members key := by
  have hpasses : (fun m : String × Json =>
      decide (((ParamKey.ofName? m.1).any fun k => !disallowed.contains k) = true ∧
        (m.1 == key.name) = true)) = fun m => !disallowed.contains key && m.1 == key.name := by
    funext m
    by_cases hm : m.1 = key.name
    · simp [hm, ParamKey.ofName?_name]
    · simp [hm]
  rw [Json.find?, readMembers, List.find?_filter, hpasses, given, Json.find?]
  cases disallowed.contains key <;> simp

/-- Reading without some keys is reading an object that lacks them and has no others. -/
theorem ofJson_readMembers (disallowed : List ParamKey) (members : List (String × Json)) :
    ofJson [] (.object (readMembers disallowed members)) =
      ofJson disallowed (.object members) := by
  have hgiven : given [] (readMembers disallowed members) = given disallowed members :=
    funext fun key => find?_readMembers disallowed members key
  rw [ofJson_object, ofJson_object, hgiven]

theorem mapM_unless {α β : Type} {f : α → Except Error β} {x : Option α} {y : Option β}
    (h : x.mapM f = .ok y) (b : Bool) :
    (if b then none else x).mapM f = .ok (if b then none else y) := by
  cases b with
  | true => rfl
  | false => exact h

theorem ReadsAs.without (h : ReadsAs (given [] members) p) :
    ReadsAs (given disallowed members) (p.without disallowed) where
  columns := mapM_unless h.columns _
  distinct := by
    have hdistinct := h.distinct
    simp only [given, FetchParams.without]
    cases disallowed.contains .distinct with
    | true => rfl
    | false => exact hdistinct
  grouping := mapM_unless h.grouping _
  groupFilter := mapM_unless h.groupFilter _
  offset := mapM_unless h.offset _
  limit := mapM_unless h.limit _
  ordering := mapM_unless h.ordering _
  rowFilter := mapM_unless h.rowFilter _

theorem ofJson_without (h : ofJson [] (.object members) = .ok p) :
    ofJson disallowed (.object members) = .ok (p.without disallowed) := by
  rw [ofJson_object] at h ⊢
  exact ofGiven_eq_ok.mpr (ofGiven_eq_ok.mp h).without

theorem unless_eq_of_mapM {α β : Type} {f : α → Except Error β} {x : Option α} {y : Option β}
    {b : Bool} (h : (if b then none else x).mapM f = .ok y) : (if b then none else y) = y := by
  cases b with
  | true =>
    cases h
    rfl
  | false => rfl

/-- What is read without some keys has nothing under them. -/
theorem without_of_ofJson (h : ofJson disallowed (.object members) = .ok p) :
    p.without disallowed = p := by
  rw [ofJson_object] at h
  obtain ⟨hcolumns, hdistinct, hgrouping, hgroupFilter, hoffset, hlimit, hordering, hrowFilter⟩ :=
    ofGiven_eq_ok.mp h
  have hunless : (if disallowed.contains .distinct then none else p.distinct) = p.distinct := by
    rw [← hdistinct, given]
    cases disallowed.contains .distinct <;> rfl
  cases p
  exact (mk.injEq ..).mpr ⟨hunless, unless_eq_of_mapM hcolumns, unless_eq_of_mapM hrowFilter,
    unless_eq_of_mapM hgroupFilter, unless_eq_of_mapM hgrouping, unless_eq_of_mapM hordering,
    unless_eq_of_mapM hlimit, unless_eq_of_mapM hoffset⟩

/-- Passing a parameter over is taking it from parameters that lack it. Only DISTINCT is written
without being asked for, and then it is off. -/
theorem step_without (p : FetchParams) (t : Target) {s : Sql.Select} {key : ParamKey}
    (h : key = .distinct → s.isDistinct = false) :
    p.step t disallowed s key = (p.without disallowed).step t [] s key := by
  have hallowed : (p.without disallowed).step t [] s key = (p.without disallowed).apply t key s :=
    rfl
  rw [hallowed, step]
  cases hkey : disallowed.contains key with
  | true =>
    cases key with
    | distinct =>
      have hoff : s = s.distinct false := by
        rw [Sql.Select.distinct, ← h rfl]
      simp only [apply, without, hkey, if_true]
      exact congrArg Except.ok hoff
    | _ => simp only [apply, without, hkey, if_true, Option.elim_none]
  | false => cases key <;> simp only [apply, without, hkey, Bool.false_eq_true, if_false]

theorem foldlM_step_without (p : FetchParams) (t : Target) {keys : List ParamKey}
    (h : .distinct ∉ keys) (s : Sql.Select) :
    keys.foldlM (p.step t disallowed) s = keys.foldlM ((p.without disallowed).step t []) s := by
  induction keys generalizing s with
  | nil => rfl
  | cons key keys ih =>
    obtain ⟨hkey, hkeys⟩ := not_or.mp (List.mem_cons.not.mp h)
    have hstep : p.step t disallowed s key = (p.without disallowed).step t [] s key :=
      p.step_without t fun hdistinct => absurd hdistinct.symm hkey
    rw [List.foldlM_cons, List.foldlM_cons, hstep]
    exact congrArg (_ >>= ·) (funext fun s' => ih hkeys s')

theorem selection_without (p : FetchParams) (t : Target) (disallowed : List ParamKey)
    (table : String) :
    p.selection t disallowed table = (p.without disallowed).selection t [] table := by
  unfold selection
  cases Text.isAllBlank table with
  | true => rfl
  | false =>
    have hstep : p.step t disallowed ((Sql.Select.ofTable table).withDialect t.dialect) .distinct =
        (p.without disallowed).step t [] ((Sql.Select.ofTable table).withDialect t.dialect)
          .distinct := p.step_without t fun _ => rfl
    simp only [Bool.false_eq_true, if_false, compileOrder]
    rw [List.foldlM_cons, List.foldlM_cons, hstep]
    exact congrArg (_ >>= ·) (funext fun s => p.foldlM_step_without t (by decide) s)

theorem compile_without (p : FetchParams) (t : Target) (disallowed : List ParamKey)
    (table : String) :
    p.compile t disallowed table = (p.without disallowed).compile t [] table := by
  rw [compile_eq, compile_eq, selection_without]

/-- What stands under disallowed or unknown keys has no influence, on a statement or on an error,
and parameters read from untyped data compile like the data. -/
theorem disallowed_keys_ignored (t : Target) (disallowed : List ParamKey) (table : String)
    (members : List (String × Json)) :
    compileJson t disallowed table (.object members) =
        compileJson t [] table (.object (readMembers disallowed members)) ∧
      (∀ others : List (String × Json),
        (∀ key ∉ disallowed, Json.find? key.name members = Json.find? key.name others) →
        compileJson t disallowed table (.object members) =
          compileJson t disallowed table (.object others)) ∧
      ∀ p, ofJson [] (.object members) = .ok p →
        compileJson t disallowed table (.object members) = p.compile t disallowed table ∧
          p.compile t disallowed table = (p.without disallowed).compile t [] table := by
  refine ⟨?_, ?_, ?_⟩
  · have hread := ofJson_readMembers disallowed members
    cases hmembers : ofJson disallowed (.object members) with
    | error e =>
      rw [hmembers] at hread
      simp only [compileJson_eq, hmembers, hread, bind, Except.bind]
    | ok p =>
      rw [hmembers] at hread
      -- What was read without the keys has nothing under them that a selection could pass over.
      have hcompile := p.compile_without t disallowed table
      rw [without_of_ofJson hmembers] at hcompile
      rw [compileJson_of_ofJson p t disallowed hmembers, hcompile,
        compileJson_of_ofJson p t [] hread]
  · intro others hagree
    have hgiven : given disallowed members = given disallowed others := by
      funext key
      by_cases hkey : key ∈ disallowed
      · simp [given, hkey]
      · simp [given, hkey, hagree key hkey]
    rw [compileJson_eq, compileJson_eq, ofJson_object, ofJson_object, hgiven]
  · intro p hread
    have hcompile := p.compile_without t disallowed table
    have hread' : ofJson disallowed (.object members) = .ok (p.without disallowed) :=
      ofJson_without hread
    have hcompile' := (p.without disallowed).compile_without t disallowed table
    rw [without_of_ofJson hread'] at hcompile'
    refine ⟨?_, hcompile⟩
    rw [compileJson_of_ofJson _ t disallowed hread', hcompile', hcompile]

def pagedUsers : List (String × Json) :=
  [("bogus", .null), ("cols", .array [.string "id"]), ("limit_size", .int 5)]

/-- The same question with paging that is malformed twice. -/
def badlyPagedUsers : List (String × Json) :=
  [("cols", .array [.string "id"]), ("limit_offset", .int (-1)), ("limit_size", .string "lots")]

theorem disallowed_keys_ignored_paging :
    compileJson Dialect.postgres.target [.limit, .offset] "users" (.object badlyPagedUsers) =
        .ok ⟨"SELECT id FROM users", []⟩ ∧
      ∃ p, ofJson [] (.object pagedUsers) = .ok p ∧ p.limit = some 5 ∧
        p.compile Dialect.postgres.target [.limit, .offset] "users" =
          .ok ⟨"SELECT id FROM users", []⟩ := by
  obtain ⟨hremoved, hagree, hread⟩ := disallowed_keys_ignored Dialect.postgres.target
    [.limit, .offset] "users" pagedUsers
  have hothers := hagree badlyPagedUsers fun key hkey => by
    cases key with
    | limit | offset => simp at hkey
    | _ => rfl
  have hpaged : ofJson [] (.object pagedUsers) = .ok { columns := some ["id"], limit := some 5 } :=
    rfl
  obtain ⟨hcompiled, -⟩ := hread _ hpaged
  have hstatement : compileJson Dialect.postgres.target [] "users"
      (.object (readMembers [.limit, .offset] pagedUsers)) = .ok ⟨"SELECT id FROM users", []⟩ := by
    rw [compileJson_eq]
    rfl
  rw [hstatement] at hremoved
  exact ⟨hothers.symm.trans hremoved, _, hpaged, rfl, hcompiled.symm.trans hremoved⟩

end FetchParams

end TableAccess
