import Mathlib.Data.List.Forall2

/-!
# Steps that may fail, along lists

What success and failure of a sequence of steps say about the steps, and lists whose members stand
in a relation.
-/
namespace TableAccess

section Steps
variable {α β γ δ ε : Type} {x : Except ε α} {e : ε}

theorem bind_eq_ok {f : α → Except ε β} {b : β} :
    (x >>= f) = .ok b ↔ ∃ a, x = .ok a ∧ f a = .ok b := by
  cases x with
  | error e => simp [bind, Except.bind]
  | ok a => simp [bind, Except.bind]

theorem bind_eq_error {f : α → Except ε β} :
    (x >>= f) = .error e ↔ x = .error e ∨ ∃ a, x = .ok a ∧ f a = .error e := by
  cases x with
  | error e => simp [bind, Except.bind]
  | ok a => simp [bind, Except.bind]

theorem map_eq_ok {f : α → β} {b : β} : x.map f = .ok b ↔ ∃ a, x = .ok a ∧ f a = b := by
  cases x with
  | error e => simp [Except.map]
  | ok a => simp [Except.map]

theorem map_eq_error {f : α → β} : x.map f = .error e ↔ x = .error e := by
  cases x <;> simp [Except.map]

theorem map_elim (o : Option α) (r : α → Except ε β) (g : β → γ) (s : γ) (k : γ → δ) :
    (o.elim (.ok s) fun a => (r a).map g).map k =
      o.elim (.ok (k s)) fun a => (r a).map fun b => k (g b) := by
  cases o with
  | none => rfl
  | some a =>
    simp only [Option.elim_some]
    cases r a <;> rfl

/-- An optional step leaves what it starts from, or ends in what it makes. -/
theorem elim_eq_ok {o : Option α} {r : α → Except ε β} {g : β → γ} {s s' : γ}
    (h : (o.elim (.ok s) fun a => (r a).map g) = .ok s') : s' = s ∨ ∃ b, s' = g b := by
  cases o with
  | none =>
    cases h
    exact .inl rfl
  | some a =>
    obtain ⟨b, -, rfl⟩ := map_eq_ok.mp h
    exact .inr ⟨b, rfl⟩

end Steps

section Lists
variable {α β ε : Type} {xs : List α} {ys : List β} {e : ε}

/-- All results, or the first failure. -/
theorem mapM_eq_ok {f : α → Except ε β} :
    xs.mapM f = .ok ys ↔ List.Forall₂ (fun x y => f x = .ok y) xs ys := by
  induction xs generalizing ys with
  | nil => simp [pure, Except.pure, eq_comm]
  | cons x xs ih =>
    simp only [List.mapM_cons, bind_eq_ok, pure, Except.pure, Except.ok.injEq,
      List.forall₂_cons_left_iff]
    constructor
    · rintro ⟨y, hy, ys', hys, rfl⟩
      exact ⟨y, ys', hy, ih.mp hys, rfl⟩
    · rintro ⟨y, ys', hy, hys, rfl⟩
      exact ⟨y, hy, ys', ih.mpr hys, rfl⟩

theorem exists_mem_of_mapM_eq_error {f : α → Except ε β} (h : xs.mapM f = .error e) :
    ∃ x ∈ xs, f x = .error e := by
  induction xs with
  | nil => cases h
  | cons x xs ih =>
    rw [List.mapM_cons] at h
    rcases bind_eq_error.mp h with hx | ⟨y, -, hrest⟩
    · exact ⟨x, by simp, hx⟩
    · rcases bind_eq_error.mp hrest with hxs | ⟨ys, -, hpure⟩
      · obtain ⟨x', hmem, hx'⟩ := ih hxs
        exact ⟨x', by simp [hmem], hx'⟩
      · cases hpure

theorem mapM_eq_some {f : α → Option β} :
    xs.mapM f = some ys ↔ List.Forall₂ (fun x y => f x = some y) xs ys := by
  induction xs generalizing ys with
  | nil => simp [eq_comm]
  | cons x xs ih =>
    simp only [List.mapM_cons, Option.bind_eq_bind, Option.bind_eq_some_iff, Option.pure_def,
      Option.some.injEq, List.forall₂_cons_left_iff]
    constructor
    · rintro ⟨y, hy, ys', hys, rfl⟩
      exact ⟨y, ys', hy, ih.mp hys, rfl⟩
    · rintro ⟨y, ys', hy, hys, rfl⟩
      exact ⟨y, hy, ys', ih.mpr hys, rfl⟩

/-- A sequence of steps fails at the first step that fails. -/
theorem foldlM_eq_error {f : β → α → Except ε β} {b : β} (h : xs.foldlM f b = .error e) :
    ∃ before x after b', xs = before ++ x :: after ∧ before.foldlM f b = .ok b' ∧
      f b' x = .error e := by
  induction xs generalizing b with
  | nil => cases h
  | cons x xs ih =>
    rw [List.foldlM_cons] at h
    rcases bind_eq_error.mp h with hx | ⟨b', hx, hrest⟩
    · exact ⟨[], x, xs, b, rfl, rfl, hx⟩
    · obtain ⟨before, y, after, b'', rfl, hbefore, hy⟩ := ih hrest
      exact ⟨x :: before, y, after, b'', rfl, bind_eq_ok.mpr ⟨b', hx, hbefore⟩, hy⟩

theorem foldlM_eq_ok {f : β → α → Except ε β} {b b' : β} (h : xs.foldlM f b = .ok b') :
    ∀ x ∈ xs, ∃ c c', f c x = .ok c' := by
  induction xs generalizing b with
  | nil => simp
  | cons x xs ih =>
    rw [List.foldlM_cons] at h
    obtain ⟨c, hx, hrest⟩ := bind_eq_ok.mp h
    exact List.forall_mem_cons.mpr ⟨⟨b, c, hx⟩, ih hrest⟩

/-- Steps for what is left of a list are steps for the list that pass over the rest. -/
theorem foldlM_filterMap {γ : Type} (f : α → Option β) (g : γ → β → Except ε γ) (c : γ) :
    (xs.filterMap f).foldlM g c = xs.foldlM (fun c x => (f x).elim (.ok c) (g c)) c := by
  rw [List.foldlM_filterMap]
  congr
  funext c x
  cases f x <;> rfl

variable {R : α → β → Prop}

theorem exists_forall₂_iff : (∃ ys, List.Forall₂ R xs ys) ↔ ∀ x ∈ xs, ∃ y, R x y := by
  induction xs with
  | nil => simp
  | cons x xs ih =>
    rw [List.forall_mem_cons, ← ih]
    constructor
    · rintro ⟨ys, h⟩
      cases h with
      | cons hxy hxs => exact ⟨⟨_, hxy⟩, _, hxs⟩
    · rintro ⟨⟨y, hy⟩, ys, hys⟩
      exact ⟨y :: ys, .cons hy hys⟩

theorem exists_mem_of_forall₂ (h : List.Forall₂ R xs ys) {y : β} (hy : y ∈ ys) :
    ∃ x ∈ xs, R x y := by
  induction h with
  | nil => cases hy
  | @cons x _ xs _ hx _ ih =>
    rcases List.mem_cons.mp hy with rfl | hy
    · exact ⟨x, List.mem_cons_self, hx⟩
    · obtain ⟨x', hmem, hx'⟩ := ih hy
      exact ⟨x', List.mem_cons_of_mem x hmem, hx'⟩

theorem ne_nil_of_forall₂ (h : List.Forall₂ R xs ys) : xs ≠ [] ↔ ys ≠ [] := by
  cases h <;> simp

theorem forall₂_and_zip (h : List.Forall₂ R xs ys) :
    List.Forall₂ (fun x y => R x y ∧ (x, y) ∈ xs.zip ys) xs ys := by
  obtain ⟨hlength, hzip⟩ := List.forall₂_iff_zip.mp h
  exact List.forall₂_iff_zip.mpr ⟨hlength, fun hxy => ⟨hzip hxy, hxy⟩⟩

end Lists

/-- Two ways to tell elements apart that agree tell equally many apart. -/
theorem length_eraseDups_map {α β γ : Type} [BEq β] [LawfulBEq β] [BEq γ] [LawfulBEq γ]
    {f : α → β} {g : α → γ} (l : List α) (h : ∀ a ∈ l, ∀ b ∈ l, f a = f b ↔ g a = g b) :
    (l.map f).eraseDups.length = (l.map g).eraseDups.length := by
  -- Erasing goes on with what is left by a filter, so the induction is on the length.
  induction hn : l.length using Nat.strongRecOn generalizing l with
  | ind n ih =>
    cases l with
    | nil => rfl
    | cons a l =>
      have hkept : l.filter ((fun b => !b == f a) ∘ f) = l.filter ((fun b => !b == g a) ∘ g) := by
        refine List.filter_congr fun b hb => ?_
        have hiff := h b (List.mem_cons_of_mem _ hb) a List.mem_cons_self
        by_cases hba : f b = f a
        · simp [hba, hiff.mp hba]
        · simp [hba, mt hiff.mpr hba]
      rw [List.map_cons, List.map_cons, List.eraseDups_cons, List.eraseDups_cons,
        List.length_cons, List.length_cons, List.filter_map, List.filter_map, hkept]
      congr 1
      refine ih _ ?_ _ ?_ rfl
      · have hle := List.length_filter_le ((fun b => !b == g a) ∘ g) l
        rw [List.length_cons] at hn
        omega
      · intro b hb c hc
        exact h b (List.mem_cons_of_mem _ (List.mem_of_mem_filter hb)) c
          (List.mem_cons_of_mem _ (List.mem_of_mem_filter hc))

end TableAccess
