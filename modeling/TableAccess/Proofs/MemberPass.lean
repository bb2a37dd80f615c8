import Mathlib.Data.List.Sort
import TableAccess.Proofs.DisallowedKeys
import TableAccess.Proofs.Entries
import TableAccess.Proofs.KeyOrder

/-!
# Parameters read in one pass

The members of an untyped object stand in the order of their names. One pass over them reads each
parameter as it comes, and gives what looking up the parameters by their names gives, the first
error included.
-/
namespace TableAccess.FetchParams

/-- Reads a parameter and puts it in its place. -/
def readInto (p : FetchParams) (j : Json) : ParamKey → Except Error FetchParams
  | .distinct => .ok { p with distinct := some (truthy j) }
  | .columns => (textList .badColsParam .columns j).map ({ p with columns := some · })
  | .rowFilter => (Filter.ofJson .rowFilter j).map ({ p with rowFilter := some · })
  | .groupFilter => (Filter.ofJson .groupFilter j).map ({ p with groupFilter := some · })
  | .grouping => (textList .badGroupByParam .grouping j).map ({ p with grouping := some · })
  | .ordering => (textList .badOrderByParam .ordering j).map ({ p with ordering := some · })
  | .limit => (limitOfJson .limit j).map ({ p with limit := some · })
  | .offset => (limitOfJson .offset j).map ({ p with offset := some · })

/-- The parameter that a member is read as, if it is one that may be given. -/
def member? (disallowed : List ParamKey) (m : String × Json) : Option (ParamKey × Json) :=
  ((ParamKey.ofName? m.1).filter (!disallowed.contains ·)).map (·, m.2)

/-- One step of a pass over the members. -/
def readMember (disallowed : List ParamKey) (p : FetchParams) (m : String × Json) :
    Except Error FetchParams :=
  (member? disallowed m).elim (.ok p) fun e => p.readInto e.2 e.1

/-- The order in which parameters are read. -/
def readOrder : List ParamKey :=
  [.columns, .distinct, .grouping, .groupFilter, .offset, .limit, .ordering, .rowFilter]

theorem readOrder_sorted : readOrder.Pairwise fun k l => k.name < l.name := by decide

theorem mem_readOrder (key : ParamKey) : key ∈ readOrder := by cases key <;> decide

/-- What is given for a parameter is put in its place, and nothing else changes. -/
theorem bind_place {α : Type} {x : Option Json} {f : Json → Except Error α}
    {k : Option α → Except Error FetchParams} {next : FetchParams → Except Error FetchParams}
    (place : Option α → FetchParams) (h : ∀ y, k y = next (place y)) :
    x.mapM f >>= k =
      (x.elim (.ok (place none)) fun j => (f j).map fun a => place (some a)) >>= next := by
  cases x with
  | none => exact h none
  | some j =>
    change (f j >>= fun a => pure (some a)) >>= k = _
    cases hf : f j with
    | error e => simp [hf, bind, Except.bind, Except.map]
    | ok a => simpa [hf, bind, Except.bind, Except.map, pure, Except.pure] using h (some a)

/-- Looking up each parameter by its name is placing what is given, in order. -/
theorem ofGiven_eq_foldlM (given : ParamKey → Option Json) :
    ofGiven given = readOrder.foldlM
      (fun p key => (given key).elim (.ok p) (p.readInto · key)) {} := by
  simp only [readOrder, List.foldlM_cons, List.foldlM_nil, ofGiven]
  refine bind_place (fun columns => { columns }) fun columns => ?_
  have hdistinct (next : FetchParams → Except Error FetchParams) :
      ((given .distinct).elim (.ok { columns }) (readInto { columns } · .distinct) >>= next) =
        next { columns, distinct := (given .distinct).map truthy } := by
    cases given .distinct <;> rfl
  rw [hdistinct]
  generalize (given .distinct).map truthy = distinct
  refine bind_place (fun grouping => { columns, distinct, grouping }) fun grouping => ?_
  refine bind_place (fun groupFilter => { columns, distinct, grouping, groupFilter })
    fun groupFilter => ?_
  refine bind_place (fun offset => { columns, distinct, grouping, groupFilter, offset })
    fun offset => ?_
  refine bind_place (fun limit => { columns, distinct, grouping, groupFilter, offset, limit })
    fun limit => ?_
  refine bind_place
    (fun ordering => { columns, distinct, grouping, groupFilter, offset, limit, ordering })
    fun ordering => ?_
  refine bind_place
    (fun rowFilter =>
      { columns, distinct, grouping, groupFilter, offset, limit, ordering, rowFilter })
    fun rowFilter => ?_
  rfl

section Pass
variable {disallowed : List ParamKey} {members : List (String × Json)} {m : String × Json}
  {e : ParamKey × Json}

theorem member?_eq_some :
    member? disallowed m = some e ↔ m = (e.1.name, e.2) ∧ disallowed.contains e.1 = false := by
  obtain ⟨name, j⟩ := m
  obtain ⟨key, j'⟩ := e
  simp only [member?, Option.map_eq_some_iff, Option.filter_eq_some_iff, ParamKey.ofName?_eq_some,
    Prod.mk.injEq, Bool.not_eq_true']
  constructor
  · rintro ⟨key, ⟨hname, hallowed⟩, rfl, rfl⟩
    exact ⟨⟨hname, rfl⟩, hallowed⟩
  · rintro ⟨⟨rfl, rfl⟩, hallowed⟩
    exact ⟨key, ⟨rfl, hallowed⟩, rfl, rfl⟩

theorem given_eq_some (h : Json.Ordered members) {key : ParamKey} {j : Json} :
    given disallowed members key = some j ↔
      (key.name, j) ∈ members ∧ disallowed.contains key = false := by
  rw [given]
  cases disallowed.contains key with
  | true => simp
  | false => simp [Json.find?, Row.find?_eq_some_iff h.nodup]

/-- The order of what was given for parameters by their names. -/
def NameLT (e e' : ParamKey × Json) : Prop := e.1.name < e'.1.name

instance : Std.Irrefl NameLT := ⟨fun e => String.lt_irrefl e.1.name⟩

instance : Std.Antisymm NameLT := ⟨fun _ _ h h' => absurd h' (String.lt_asymm h)⟩

/-- What is given for the parameters, in the order in which they are read, is what the members are
read as, in their own order. -/
theorem filterMap_given (disallowed : List ParamKey) (h : Json.Ordered members) :
    readOrder.filterMap (fun key => (given disallowed members key).map (key, ·)) =
      members.filterMap (member? disallowed) := by
  have hgiven : (readOrder.filterMap fun key =>
      (given disallowed members key).map (key, ·)).Pairwise NameLT := by
    refine readOrder_sorted.filterMap _ fun key key' hlt e he e' he' => ?_
    obtain ⟨j, -, rfl⟩ := Option.map_eq_some_iff.mp he
    obtain ⟨j', -, rfl⟩ := Option.map_eq_some_iff.mp he'
    exact hlt
  have hmembers : (members.filterMap (member? disallowed)).Pairwise NameLT := by
    refine h.filterMap _ fun m m' hlt e he e' he' => ?_
    obtain ⟨rfl, -⟩ := member?_eq_some.mp he
    obtain ⟨rfl, -⟩ := member?_eq_some.mp he'
    exact hlt
  refine hgiven.eq_of_mem_iff hmembers fun e => ?_
  simp only [List.mem_filterMap, member?_eq_some, Option.map_eq_some_iff, given_eq_some h]
  constructor
  · rintro ⟨key, -, j, hj, rfl⟩
    exact ⟨_, hj.1, rfl, hj.2⟩
  · rintro ⟨m, hm, rfl, hallowed⟩
    exact ⟨e.1, mem_readOrder e.1, e.2, ⟨hm, hallowed⟩, rfl⟩

/-- Reading the members of an object is one pass over them. -/
theorem ofJson_eq_foldlM (disallowed : List ParamKey) (h : Json.Ordered members) :
    ofJson disallowed (.object members) = members.foldlM (readMember disallowed) {} := by
  rw [ofJson_object, ofGiven_eq_foldlM]
  calc readOrder.foldlM (fun p key => (given disallowed members key).elim (.ok p)
        (p.readInto · key)) {}
      = (readOrder.filterMap fun key => (given disallowed members key).map (key, ·)).foldlM
          (fun p e => readInto p e.2 e.1) {} := by
        rw [foldlM_filterMap]
        congr
        funext p key
        cases given disallowed members key <;> rfl
    _ = (members.filterMap (member? disallowed)).foldlM (fun p e => readInto p e.2 e.1) {} := by
        rw [filterMap_given disallowed h]
    _ = members.foldlM (readMember disallowed) {} := foldlM_filterMap _ _ _

end Pass

end TableAccess.FetchParams
