import Mathlib.Data.List.Induction
import TableAccess.Criteria
import TableAccess.Proofs.Lowering

/-!
# Entries set one after another

What is left of a sequence of settings in a list that replaces a key in place: every key that was
set, once, with what it was set to last. Criteria are made in this way from whatever they are
given, so none of them is lost and none stands twice.
-/
namespace TableAccess

namespace Row
variable {α : Type}

theorem find?_setEntry (key k : String) (a : α) (entries : List (String × α)) :
    (setEntry key a entries).find? (·.1 == k) =
      if k = key then some (key, a) else entries.find? (·.1 == k) := by
  induction entries with
  | nil =>
    by_cases hk : k = key
    · simp [setEntry, hk]
    · simp [setEntry, hk, Ne.symm hk]
  | cons e entries ih =>
    by_cases he : e.1 = key
    · by_cases hk : k = key
      · simp [setEntry, he, hk]
      · simp [setEntry, he, hk, Ne.symm hk]
    · have hcons : setEntry key a (e :: entries) = e :: setEntry key a entries := by
        simp [setEntry, he]
      rw [hcons]
      by_cases hek : e.1 = k
      · have hk : k ≠ key := hek ▸ he
        simp [hek, hk]
      · rw [List.find?_cons_of_neg (by simpa using hek),
          List.find?_cons_of_neg (by simpa using hek), ih]

theorem keys_setEntry (key : String) (a : α) (entries : List (String × α)) :
    (setEntry key a entries).map (·.1) =
      if key ∈ entries.map (·.1) then entries.map (·.1) else entries.map (·.1) ++ [key] := by
  induction entries with
  | nil => rfl
  | cons e entries ih =>
    by_cases he : e.1 = key
    · simp [setEntry, he]
    · by_cases hmem : key ∈ entries.map (·.1)
      · simp [setEntry, he, ih, hmem]
      · simp [setEntry, he, ih, hmem, Ne.symm he]

/-- Setting a key once more replaces what it was set to. -/
theorem setEntry_setEntry (key : String) (a b : α) (entries : List (String × α)) :
    setEntry key b (setEntry key a entries) = setEntry key b entries := by
  induction entries with
  | nil => simp [setEntry]
  | cons e entries ih =>
    by_cases he : e.1 = key
    · simp [setEntry, he]
    · simp [setEntry, he, ih]

/-- Where no key stands twice, what is found under a key is what stands there. -/
theorem find?_eq_some_iff {key : String} {a : α} {entries : List (String × α)}
    (h : (entries.map (·.1)).Nodup) :
    (entries.find? (·.1 == key)).map (·.2) = some a ↔ (key, a) ∈ entries := by
  induction entries with
  | nil => simp
  | cons e entries ih =>
    obtain ⟨k, b⟩ := e
    obtain ⟨hnotMem, hnodup⟩ := List.nodup_cons.mp h
    by_cases hk : k = key
    · subst hk
      have hother : (k, a) ∉ entries := fun hmem => hnotMem (List.mem_map.mpr ⟨_, hmem, rfl⟩)
      simp [hother, eq_comm]
    · simp [hk, Ne.symm hk, ih hnodup]

end Row

namespace Criteria

def ofSettings (settings : List (String × Operand)) : Criteria :=
  settings.foldl (fun c s => c.set s.1 s.2) empty

def operand? (c : Criteria) (column : String) : Option Operand :=
  (c.entries.find? (·.1 == column)).map (·.2)

/-- Every column that was set is there once, with what was asked of it last. -/
structure Keeps (settings : List (String × Operand)) (c : Criteria) : Prop where
  nodup : (c.entries.map (·.1)).Nodup
  operand?_eq : ∀ column, c.operand? column = (settings.reverse.find? (·.1 == column)).map (·.2)

theorem keeps_empty : empty.Keeps [] := ⟨List.nodup_nil, fun _ => rfl⟩

theorem Keeps.set {settings : List (String × Operand)} {c : Criteria} (h : c.Keeps settings)
    (column : String) (operand : Operand) :
    (c.set column operand).Keeps (settings ++ [(column, operand)]) := by
  refine ⟨(c.set column operand).nodup, fun k => ?_⟩
  have hk := h.operand?_eq k
  rw [operand?] at hk ⊢
  rw [Criteria.set, Row.find?_setEntry, List.reverse_append]
  by_cases hcolumn : k = column
  · simp [hcolumn]
  · simpa [hcolumn, Ne.symm hcolumn] using hk

theorem keeps_ofSettings (settings : List (String × Operand)) :
    (ofSettings settings).Keeps settings := by
  induction settings using List.reverseRecOn with
  | nil => exact keeps_empty
  | append_singleton settings s ih =>
    simpa [ofSettings, List.foldl_append] using ih.set s.1 s.2

def rowSettings (r : Row) : List (String × Operand) := r.entries.map fun e => (e.1, .scalar e.2)

theorem ofRow_eq (r : Row) : ofRow r = ofSettings (rowSettings r) := by
  rw [ofRow, ofSettings, rowSettings, List.foldl_map]
  rfl

/-- Members of an untyped object and what they ask of their columns. -/
def ReadAs (members : List (String × Json)) (settings : List (String × Operand)) : Prop :=
  List.Forall₂ (fun m s => s.1 = m.1 ∧ operandOfJson m.1 m.2 = .ok s.2) members settings

theorem ofJson_eq_ok {members : List (String × Json)} {c : Criteria}
    (h : ofJson (.object members) = .ok c) :
    ∃ settings, ReadAs members settings ∧ c = ofSettings settings := by
  have hfold : ∀ (start : Criteria) (members : List (String × Json)),
      members.foldlM (fun c m => (operandOfJson m.1 m.2).map (c.set m.1)) start = .ok c →
      ∃ settings, ReadAs members settings ∧
        c = settings.foldl (fun c s => c.set s.1 s.2) start := by
    intro start members
    induction members generalizing start with
    | nil =>
      intro h
      cases h
      exact ⟨[], .nil, rfl⟩
    | cons m members ih =>
      intro h
      rw [List.foldlM_cons] at h
      obtain ⟨next, hnext, hrest⟩ := bind_eq_ok.mp h
      obtain ⟨operand, hoperand, rfl⟩ := map_eq_ok.mp hnext
      obtain ⟨settings, hsettings, rfl⟩ := ih _ hrest
      exact ⟨(m.1, operand) :: settings, .cons ⟨rfl, hoperand⟩ hsettings, rfl⟩
  exact hfold empty members h

end Criteria

end TableAccess
