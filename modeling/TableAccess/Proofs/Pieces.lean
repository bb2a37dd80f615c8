import TableAccess.Sql.Statement

/-!
# Texts with places for values

A statement taken apart into text and the places at which values are bound. Placeholders are
numbered from left to right over the whole text, so a text is a list of pieces together with the
number of values that are bound before it. `spell_append` says how the numbers run on.
-/
namespace TableAccess.Sql

/-- A piece of a statement: text as it stands, or the place of a bound value. -/
inductive Piece where
  | text (s : String)
  | bound (v : Value)
  deriving DecidableEq

namespace Piece

/-- The values at the places, from left to right. -/
def values : List Piece → List Value
  | [] => []
  | .text _ :: ps => values ps
  | .bound v :: ps => v :: values ps

/-- The text with a placeholder at every place, `n` values being bound before it. -/
def spell (d : Dialect) (n : Nat) : List Piece → String
  | [] => ""
  | .text s :: ps => s ++ spell d n ps
  | .bound _ :: ps => d.placeholder (n + 1) ++ spell d (n + 1) ps

/-- The texts of several lists of pieces, the numbers running on from one to the next. -/
def spellEach (d : Dialect) (n : Nat) : List (List Piece) → List String
  | [] => []
  | ps :: rest => spell d n ps :: spellEach d (n + (values ps).length) rest

theorem values_append (ps qs : List Piece) : values (ps ++ qs) = values ps ++ values qs := by
  induction ps with
  | nil => rfl
  | cons p ps ih => cases p <;> simp [values, ih]

/-- A text that follows another one goes on counting where the first one stops. -/
theorem spell_append (d : Dialect) (n : Nat) (ps qs : List Piece) :
    spell d n (ps ++ qs) = spell d n ps ++ spell d (n + (values ps).length) qs := by
  induction ps generalizing n with
  | nil => simp [spell, values]
  | cons p ps ih =>
    cases p with
    | text s => simp [spell, values, ih, String.append_assoc]
    | bound v =>
      have hn : n + 1 + (values ps).length = n + ((values ps).length + 1) := by omega
      simp [spell, values, ih, String.append_assoc, hn]

/-- Only one dialect shows the numbers of its placeholders. -/
theorem spell_unnumbered {d : Dialect} (hd : d ≠ .postgres) (n m : Nat) (ps : List Piece) :
    spell d n ps = spell d m ps := by
  have hp : ∀ i j, d.placeholder i = d.placeholder j := by
    intro i j
    cases d with
    | postgres => exact absurd rfl hd
    | mysql | sqlite | sqlserver => rfl
  induction ps generalizing n m with
  | nil => rfl
  | cons p ps ih =>
    cases p with
    | text s => rw [spell, spell, ih n m]
    | bound v => rw [spell, spell, hp (n + 1) (m + 1), ih (n + 1) (m + 1)]

/-- Values keep their places when lists of pieces are joined by a text. -/
theorem values_intercalate (sep : String) (pss : List (List Piece)) :
    values ([.text sep].intercalate pss) = pss.flatMap values := by
  induction pss with
  | nil => rfl
  | cons ps rest ih =>
    cases rest with
    | nil => simp
    | cons qs rest =>
      rw [List.intercalate_cons_cons, values_append, values_append, ih]
      simp [values]

/-- Texts joined by a separator are the text of the joined pieces. -/
theorem intercalate_spellEach (d : Dialect) (sep : String) (n : Nat) (pss : List (List Piece)) :
    sep.intercalate (spellEach d n pss) = spell d n ([.text sep].intercalate pss) := by
  induction pss generalizing n with
  | nil => simp [spellEach, spell]
  | cons ps rest ih =>
    cases rest with
    | nil => simp [spellEach]
    | cons qs rest =>
      have hrest := ih (n + (values ps).length)
      simp only [spellEach] at hrest ⊢
      rw [String.intercalate_cons_cons, hrest, List.intercalate_cons_cons, spell_append,
        spell_append]
      simp [spell, values, values_append, String.append_assoc]

end Piece

namespace ParamList

/-- The list with more values. -/
def append (ps : ParamList) (vs : List Value) : ParamList := ⟨ps.values ++ vs⟩

theorem append_nil (ps : ParamList) : ps.append [] = ps := by
  simp [append]

theorem append_append (ps : ParamList) (vs ws : List Value) :
    (ps.append vs).append ws = ps.append (vs ++ ws) := by
  simp [append, List.append_assoc]

theorem size_append (ps : ParamList) (vs : List Value) :
    (ps.append vs).size = ps.size + vs.length := by
  simp [append, size]

@[simp] theorem size_empty : empty.size = 0 := rfl

@[simp] theorem values_empty_append (vs : List Value) : (empty.append vs).values = vs := rfl

@[simp] theorem size_empty_append (vs : List Value) : (empty.append vs).size = vs.length := rfl

theorem bind_eq (ps : ParamList) (d : Dialect) (v : Value) :
    ps.bind d v = (d.placeholder (ps.size + 1), ps.append [v]) := by
  simp [bind, push, append, size]

/-- Values bound one after another take one place each. -/
theorem bindAll_eq (d : Dialect) (vs : List Value) (ps : ParamList) :
    bindAll d vs ps =
      (Piece.spellEach d ps.size (vs.map fun v => [.bound v]), ps.append vs) := by
  induction vs generalizing ps with
  | nil => simp [bindAll, Piece.spellEach, append_nil]
  | cons v vs ih =>
    simp only [bindAll, bind_eq, ih, size_append, append_append, List.map_cons, Piece.spellEach]
    simp [Piece.spell, Piece.values]

end ParamList

/-- The statement of pieces that stand at its beginning. -/
def Statement.ofPieces (d : Dialect) (ps : List Piece) : Statement :=
  ⟨Piece.spell d 0 ps, Piece.values ps⟩

end TableAccess.Sql
