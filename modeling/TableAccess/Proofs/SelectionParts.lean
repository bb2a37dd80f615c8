import TableAccess.Proofs.DisallowedKeys

/-!
# The parts of a selection

Each parameter sets a part of a selection and leaves the others alone. So whatever order the
parameters are taken in, the selection has the paging of its parameters, and their filters.
-/
namespace TableAccess.FetchParams

/-- What one parameter leaves of a selection: all parts but its own. -/
structure Frame (key : ParamKey) (s s' : Sql.Select) : Prop where
  dialect : s'.dialect = s.dialect
  limit : key ≠ .limit → s'.limit? = s.limit?
  offset : key ≠ .offset → s'.offset? = s.offset?
  filter : key ≠ .rowFilter → s'.filter = s.filter
  groupFilter : key ≠ .groupFilter → s'.groupFilter = s.groupFilter

/-- A selection has the paging and the filters of parameters. -/
structure TakenFrom (p : FetchParams) (t : Target) (s : Sql.Select) : Prop where
  dialect : s.dialect = t.dialect
  limit : s.limit? = p.limit
  offset : s.offset? = p.offset
  rowFilter : ∀ f ∈ p.rowFilter, ∃ e, f.toExpr t.quote .rowFilter = .ok e ∧
    s.filter = Sql.ExprGroup.empty.and e
  groupFilter : ∀ f ∈ p.groupFilter, ∃ e, f.toExpr t.quote .groupFilter = .ok e ∧
    s.groupFilter = Sql.ExprGroup.empty.and e

section Frame
variable {p : FetchParams} {t : Target} {key : ParamKey} {s s' : Sql.Select}

theorem frame_of_apply (h : p.apply t key s = .ok s') : Frame key s s' := by
  cases key with
  | distinct =>
    cases h
    exact ⟨rfl, fun _ => rfl, fun _ => rfl, fun _ => rfl, fun _ => rfl⟩
  | columns =>
    cases h
    cases p.columns with
    | none => exact ⟨rfl, fun _ => rfl, fun _ => rfl, fun _ => rfl, fun _ => rfl⟩
    | some names =>
      cases names <;> exact ⟨rfl, fun _ => rfl, fun _ => rfl, fun _ => rfl, fun _ => rfl⟩
  | rowFilter =>
    rcases elim_eq_ok h with rfl | ⟨e, rfl⟩
    all_goals exact ⟨rfl, fun _ => rfl, fun _ => rfl, fun hne => absurd rfl hne, fun _ => rfl⟩
  | grouping =>
    cases h
    cases p.grouping <;> exact ⟨rfl, fun _ => rfl, fun _ => rfl, fun _ => rfl, fun _ => rfl⟩
  | groupFilter =>
    rcases elim_eq_ok h with rfl | ⟨e, rfl⟩
    all_goals exact ⟨rfl, fun _ => rfl, fun _ => rfl, fun _ => rfl, fun hne => absurd rfl hne⟩
  | ordering =>
    cases h
    cases p.ordering <;> exact ⟨rfl, fun _ => rfl, fun _ => rfl, fun _ => rfl, fun _ => rfl⟩
  | limit =>
    cases h
    cases p.limit
    all_goals exact ⟨rfl, fun hne => absurd rfl hne, fun _ => rfl, fun _ => rfl, fun _ => rfl⟩
  | offset =>
    cases h
    cases p.offset
    all_goals exact ⟨rfl, fun _ => rfl, fun hne => absurd rfl hne, fun _ => rfl, fun _ => rfl⟩

variable {α : Type} {field : Sql.Select → α} {keys : List ParamKey}

/-- A part that none of some parameters changes is the same behind all of them. -/
theorem field_eq_of_foldlM (hfield : ∀ k ∈ keys, ∀ s s', Frame k s s' → field s' = field s)
    (h : keys.foldlM (p.step t []) s = .ok s') : field s' = field s := by
  induction keys generalizing s with
  | nil =>
    cases h
    rfl
  | cons key keys ih =>
    rw [List.foldlM_cons] at h
    obtain ⟨s₁, hstep, hrest⟩ := bind_eq_ok.mp h
    obtain ⟨hkey, hkeys⟩ := List.forall_mem_cons.mp hfield
    rw [ih hkeys hrest, hkey s s₁ (frame_of_apply hstep)]

/-- A part that one parameter alone changes is what this one makes of it. -/
theorem exists_apply_of_selection {table : String} (key : ParamKey)
    (hfield : ∀ k s s', k ≠ key → Frame k s s' → field s' = field s)
    (h : p.selection t [] table = .ok s) : ∃ s₁ s₂,
      field s₁ = field ((Sql.Select.ofTable table).withDialect t.dialect) ∧
        p.apply t key s₁ = .ok s₂ ∧ field s = field s₂ := by
  unfold selection at h
  split at h
  · cases h
  · have hmem : key ∈ compileOrder := by cases key <;> decide
    have hnodup : compileOrder.Nodup := by decide
    obtain ⟨before, after, horder⟩ := List.append_of_mem hmem
    rw [horder] at h hnodup
    rw [List.foldlM_append, bind_eq_ok] at h
    obtain ⟨s₁, hbefore, h⟩ := h
    rw [List.foldlM_cons, bind_eq_ok] at h
    obtain ⟨s₂, hkey, hafter⟩ := h
    obtain ⟨-, hcons, hdisjoint⟩ := List.nodup_append.mp hnodup
    refine ⟨s₁, s₂, field_eq_of_foldlM (fun k hk s s' => hfield k s s' ?_) hbefore, hkey,
      field_eq_of_foldlM (fun k hk s s' => hfield k s s' ?_) hafter⟩
    · exact hdisjoint k hk key List.mem_cons_self
    · rintro rfl
      exact (List.nodup_cons.mp hcons).1 hk

/-- Each part of a selection comes from its own parameter. -/
theorem takenFrom_selection {table : String} (h : p.selection t [] table = .ok s) :
    TakenFrom p t s where
  dialect := by
    obtain ⟨s₁, s₂, hstart, happly, hend⟩ := exists_apply_of_selection .distinct
      (fun _ _ _ _ hframe => hframe.dialect) h
    rw [hend, (frame_of_apply happly).dialect, hstart]
    rfl
  limit := by
    obtain ⟨s₁, s₂, hstart, happly, hend⟩ := exists_apply_of_selection .limit
      (fun _ _ _ hk hframe => hframe.limit hk) h
    rw [hend]
    cases happly
    cases p.limit with
    | none => exact hstart
    | some n => rfl
  offset := by
    obtain ⟨s₁, s₂, hstart, happly, hend⟩ := exists_apply_of_selection .offset
      (fun _ _ _ hk hframe => hframe.offset hk) h
    rw [hend]
    cases happly
    cases p.offset with
    | none => exact hstart
    | some n => rfl
  rowFilter f hf := by
    obtain ⟨s₁, s₂, hstart, happly, hend⟩ := exists_apply_of_selection .rowFilter
      (fun _ _ _ hk hframe => hframe.filter hk) h
    rw [apply, Option.mem_def.mp hf] at happly
    obtain ⟨e, he, rfl⟩ := map_eq_ok.mp happly
    refine ⟨e, he, ?_⟩
    rw [hend, Sql.Select.andWhere, hstart]
    rfl
  groupFilter f hf := by
    obtain ⟨s₁, s₂, hstart, happly, hend⟩ := exists_apply_of_selection .groupFilter
      (fun _ _ _ hk hframe => hframe.groupFilter hk) h
    rw [apply, Option.mem_def.mp hf] at happly
    obtain ⟨e, he, rfl⟩ := map_eq_ok.mp happly
    refine ⟨e, he, ?_⟩
    rw [hend, Sql.Select.andHaving, hstart]
    rfl

end Frame

theorem mapM_some {α β : Type} {f : α → Except Error β} {a : α} {y : Option β}
    (h : (some a).mapM f = .ok y) : ∃ b, f a = .ok b ∧ y = some b := by
  obtain ⟨b, hb, hy⟩ := bind_eq_ok.mp h
  cases hy
  exact ⟨b, hb, rfl⟩

/-- A statement from untyped data is that of a selection whose parts were read from the data. -/
theorem exists_selection_of_compileJson {t : Target} {disallowed : List ParamKey} {table : String}
    {j : Json} {st : Sql.Statement} (h : compileJson t disallowed table j = .ok st) :
    ∃ members p s, j = .object members ∧ ReadsAs (given disallowed members) p ∧ TakenFrom p t s ∧
      st = s.build := by
  rw [compileJson_eq] at h
  obtain ⟨p, hread, hcompile⟩ := bind_eq_ok.mp h
  cases j with
  | object members =>
    rw [compile_without, without_of_ofJson hread, compile_eq] at hcompile
    obtain ⟨s, hs, rfl⟩ := map_eq_ok.mp hcompile
    exact ⟨members, p, s, rfl, ofGiven_eq_ok.mp hread, takenFrom_selection hs, rfl⟩
  | _ => cases hread

end TableAccess.FetchParams
