import Mathlib.Data.List.TakeWhile
import TableAccess.Dialect
import TableAccess.Proofs.Words

/-!
# Paging clauses

The clauses that limit a result and skip its first rows, read from the words of a selection by the
rules of each dialect, and the rows that they take of a result. Words that have no such clause can
be followed by one, and then it is what is read.
-/
namespace TableAccess

/-- What the paging clauses of a selection say. -/
structure Paging where
  top? : Option Int := none
  limit? : Option Int := none
  offset? : Option Int := none
  deriving DecidableEq

namespace Paging

/-- A number behind some words and before others at the front, and the words behind. -/
def takeClause? (opening closing ws : List String) : Option (Int × List String) :=
  (ws.dropPrefix? opening).bind fun
    | [] => none
    | number :: rest => (Text.readInteger? number).bind fun n =>
      (rest.dropPrefix? closing).map fun rest => (n, rest)

/-- Cuts a clause off the front of words, if it is there. -/
def cutClause (opening closing ws : List String) : Option Int × List String :=
  match takeClause? opening closing ws with
  | some (n, rest) => (some n, rest)
  | none => (none, ws)

/-- Cuts a clause off the end of words, if it is there. -/
def cutEndClause (opening closing ws : List String) : Option Int × List String :=
  let clause := cutClause closing.reverse opening.reverse ws.reverse
  (clause.1, clause.2.reverse)

def isHeadWord (w : String) : Bool := w = "SELECT" || w = "DISTINCT"

/-- Cuts the limit out that stands before the columns. -/
def cutTop (ws : List String) : Option Int × List String :=
  let top := cutClause ["TOP"] [] (ws.dropWhile isHeadWord)
  (top.1, ws.takeWhile isHeadWord ++ top.2)

/-- Reads the paging clauses of the words of a selection, those behind the ordering from its end. -/
def read (d : Dialect) (ws : List String) : Paging :=
  if d = .sqlserver then
    let top := cutTop ws
    let limit := cutEndClause ["FETCH", "NEXT"] ["ROWS", "ONLY"] top.2
    let offset := cutEndClause ["OFFSET"] ["ROWS"] limit.2
    ⟨top.1, limit.1, offset.1⟩
  else
    let offset := cutEndClause ["OFFSET"] [] ws
    let limit := cutEndClause ["LIMIT"] [] offset.2
    ⟨none, limit.1, offset.1⟩

/-- The number of rows that a limit allows; two dialects write a number that allows all. -/
def cap (d : Dialect) (n : Int) : Option Nat :=
  if d = .sqlite ∧ n < 0 ∨ d = .mysql ∧ n = 18446744073709551615 then none else some n.toNat

/-- The rows that the clauses take of a result. -/
def rows {α : Type} (d : Dialect) (p : Paging) (rs : List α) : List α :=
  let skipped := rs.drop (p.offset?.elim 0 Int.toNat)
  let limited := (p.limit?.bind (cap d)).elim skipped skipped.take
  (p.top?.bind (cap d)).elim limited limited.take

section Clauses
variable {opening closing ws rest : List String} {number : String} {n : Int}

theorem takeClause?_eq_some :
    takeClause? opening closing ws = some (n, rest) ↔
      ∃ number, ws = opening ++ number :: (closing ++ rest) ∧
        Text.readInteger? number = some n := by
  have hdrop : ∀ {before xs ys : List String},
      xs.dropPrefix? before = some ys ↔ xs = before ++ ys := by
    intro before xs ys
    simp [List.dropPrefix?_eq_some_iff]
  rw [takeClause?, Option.bind_eq_some_iff]
  constructor
  · rintro ⟨ys, hys, htake⟩
    cases ys with
    | nil => simp at htake
    | cons number ys =>
      obtain ⟨i, hi, hmap⟩ := Option.bind_eq_some_iff.mp htake
      obtain ⟨zs, hzs, heq⟩ := Option.map_eq_some_iff.mp hmap
      obtain ⟨rfl, rfl⟩ := Prod.mk.inj heq
      exact ⟨number, by rw [hdrop.mp hys, hdrop.mp hzs], hi⟩
  · rintro ⟨number, rfl, hread⟩
    refine ⟨number :: (closing ++ rest), hdrop.mpr rfl, ?_⟩
    simp [hread, hdrop.mpr rfl]

theorem cutClause_eq (h : Text.readInteger? number = some n) :
    cutClause opening closing (opening ++ number :: (closing ++ rest)) = (some n, rest) := by
  rw [cutClause, takeClause?_eq_some.mpr ⟨number, rfl, h⟩]

theorem cutClause_fst_eq_none :
    (cutClause opening closing ws).1 = none ↔
      ∀ number rest, ws = opening ++ number :: (closing ++ rest) →
        Text.readInteger? number = none := by
  rw [cutClause]
  constructor
  · intro h number rest hws
    cases hread : Text.readInteger? number with
    | none => rfl
    | some n => simp [takeClause?_eq_some.mpr ⟨number, hws, hread⟩] at h
  · intro h
    cases htake : takeClause? opening closing ws with
    | none => rfl
    | some p =>
      obtain ⟨number, hws, hread⟩ := takeClause?_eq_some.mp htake
      simp [h number _ hws] at hread

theorem cutClause_of_none (h : (cutClause opening closing ws).1 = none) :
    cutClause opening closing ws = (none, ws) := by
  unfold cutClause at h ⊢
  cases htake : takeClause? opening closing ws with
  | none => rfl
  | some p => simp [htake] at h

theorem cutEndClause_append (h : Text.readInteger? number = some n) :
    cutEndClause opening closing (ws ++ (opening ++ number :: closing)) = (some n, ws) := by
  have hreverse : (ws ++ (opening ++ number :: closing)).reverse =
      closing.reverse ++ number :: (opening.reverse ++ ws.reverse) := by simp
  rw [cutEndClause, hreverse, cutClause_eq h]
  simp

theorem cutEndClause_of_none (h : (cutEndClause opening closing ws).1 = none) :
    cutEndClause opening closing ws = (none, ws) := by
  have hcut : (cutClause closing.reverse opening.reverse ws.reverse).1 = none := h
  rw [cutEndClause, cutClause_of_none hcut, List.reverse_reverse]

theorem cutEndClause_eq_none :
    cutEndClause opening closing ws = (none, ws) ↔
      ∀ number rest, ws = rest ++ (opening ++ number :: closing) →
        Text.readInteger? number = none := by
  constructor
  · intro h number rest hws
    cases hread : Text.readInteger? number with
    | none => rfl
    | some n =>
      rw [hws, cutEndClause_append hread] at h
      simp at h
  · intro h
    refine cutEndClause_of_none (cutClause_fst_eq_none.mpr fun number rest hws => ?_)
    refine h number rest.reverse ?_
    rw [← List.reverse_inj, hws]
    simp

end Clauses

section Reading
variable {d : Dialect} {ws : List String} {number : String} {l m n : Int}

theorem cutTop_of_none (h : (cutTop ws).1 = none) : cutTop ws = (none, ws) := by
  unfold cutTop at h ⊢
  simp [cutClause_of_none h]

theorem cutTop_append {hs : List String} (hhead : ∀ w ∈ hs, isHeadWord w = true)
    (hread : Text.readInteger? number = some n) :
    cutTop (hs ++ "TOP" :: number :: ws) = (some n, hs ++ ws) := by
  have hcut : cutClause ["TOP"] [] ("TOP" :: number :: ws) = (some n, ws) := cutClause_eq hread
  rw [cutTop, List.dropWhile_append_of_pos hhead, List.takeWhile_append_of_pos hhead,
    List.dropWhile_cons_of_neg (by decide), List.takeWhile_cons_of_neg (by decide), hcut]
  simp

/-- What follows on the words of a selection does not come before its columns. -/
theorem cutTop_append_right (ts : List String) (hfrom : "FROM" ∈ ws) (h : (cutTop ws).1 = none) :
    cutTop (ws ++ ts) = (none, ws ++ ts) := by
  have hcut : (cutClause ["TOP"] [] (ws.dropWhile isHeadWord)).1 = none := h
  have hmem : "FROM" ∈ ws.dropWhile isHeadWord := by
    have hall : "FROM" ∈ ws.takeWhile isHeadWord ++ ws.dropWhile isHeadWord := by
      simpa using hfrom
    refine (List.mem_append.mp hall).resolve_left fun hhead => ?_
    exact absurd (List.mem_takeWhile_imp hhead) (by decide)
  have hdrop : (ws ++ ts).dropWhile isHeadWord = ws.dropWhile isHeadWord ++ ts := by
    simp [List.dropWhile_append, List.ne_nil_of_mem hmem]
  refine cutTop_of_none ?_
  rw [cutTop, hdrop, cutClause_fst_eq_none]
  -- The word that TOP would need behind it is one of the words that were there before.
  intro number rest hwords
  generalize ws.dropWhile isHeadWord = rs at hcut hmem hwords
  match rs with
  | [] => simp at hmem
  | [w] => simp_all
  | w :: v :: rs =>
    obtain ⟨rfl, rfl, -⟩ : w = "TOP" ∧ v = number ∧ rs ++ ts = rest := by simpa using hwords
    exact cutClause_fst_eq_none.mp hcut v rs rfl

theorem read_sqlserver_eq_empty :
    read .sqlserver ws = {} ↔
      cutTop ws = (none, ws) ∧
        cutEndClause ["FETCH", "NEXT"] ["ROWS", "ONLY"] ws = (none, ws) ∧
        cutEndClause ["OFFSET"] ["ROWS"] ws = (none, ws) := by
  simp only [read, if_true, mk.injEq]
  constructor
  · rintro ⟨htop, hlimit, hoffset⟩
    have htop' := cutTop_of_none htop
    rw [htop'] at hlimit hoffset
    have hlimit' := cutEndClause_of_none hlimit
    rw [hlimit'] at hoffset
    exact ⟨htop', hlimit', cutEndClause_of_none hoffset⟩
  · rintro ⟨htop, hlimit, hoffset⟩
    simp [htop, hlimit, hoffset]

theorem read_eq_empty (hd : d ≠ .sqlserver) :
    read d ws = {} ↔
      cutEndClause ["OFFSET"] [] ws = (none, ws) ∧ cutEndClause ["LIMIT"] [] ws = (none, ws) := by
  simp only [read, if_neg hd, mk.injEq, true_and]
  constructor
  · rintro ⟨hlimit, hoffset⟩
    have hoffset' := cutEndClause_of_none hoffset
    rw [hoffset'] at hlimit
    exact ⟨hoffset', cutEndClause_of_none hlimit⟩
  · rintro ⟨hoffset, hlimit⟩
    simp [hlimit, hoffset]

/-- Without a number there is no clause. -/
theorem read_of_no_number (h : ∀ w ∈ ws, Text.readInteger? w = none) : read d ws = {} := by
  have hend : ∀ {opening closing}, cutEndClause opening closing ws = (none, ws) :=
    cutEndClause_eq_none.mpr fun number rest hws => h number (by simp [hws])
  by_cases hd : d = .sqlserver
  · subst hd
    refine read_sqlserver_eq_empty.mpr ⟨cutTop_of_none ?_, hend, hend⟩
    refine cutClause_fst_eq_none.mpr fun number rest hws => h number ?_
    exact (List.dropWhile_sublist isHeadWord).subset (by simp [hws])
  · exact (read_eq_empty hd).mpr ⟨hend, hend⟩

theorem read_append_top {hs : List String} (hhead : ∀ w ∈ hs, isHeadWord w = true)
    (hread : Text.readInteger? number = some n) (h : read .sqlserver (hs ++ ws) = {}) :
    read .sqlserver (hs ++ "TOP" :: number :: ws) = { top? := some n } := by
  obtain ⟨-, hlimit, hoffset⟩ := read_sqlserver_eq_empty.mp h
  simp only [read, if_true, cutTop_append hhead hread, hlimit, hoffset]

theorem cutEndClause_rows (ws : List String) (hread : Text.readInteger? number = some m) :
    cutEndClause ["OFFSET"] ["ROWS"] (ws ++ ["OFFSET", number, "ROWS"]) = (some m, ws) :=
  cutEndClause_append hread

theorem read_append_rows (ts : List String) (hfrom : "FROM" ∈ ws)
    (hread : Text.readInteger? number = some m) (h : read .sqlserver ws = {}) :
    read .sqlserver (ws ++ ts ++ ["OFFSET", number, "ROWS"]) = { offset? := some m } := by
  obtain ⟨hws, -, -⟩ := read_sqlserver_eq_empty.mp h
  have htop := cutTop_append_right (ts ++ ["OFFSET", number, "ROWS"]) hfrom (by rw [hws])
  rw [← List.append_assoc] at htop
  have hlimit : cutEndClause ["FETCH", "NEXT"] ["ROWS", "ONLY"]
      (ws ++ ts ++ ["OFFSET", number, "ROWS"]) =
        (none, ws ++ ts ++ ["OFFSET", number, "ROWS"]) := by
    refine cutEndClause_eq_none.mpr fun number' rest hwords => ?_
    have hreverse := congrArg List.reverse hwords
    simp at hreverse
  simp only [read, if_true, htop, hlimit, cutEndClause_rows _ hread]

theorem read_append_fetch {number' : String} (ts : List String) (hfrom : "FROM" ∈ ws)
    (hread : Text.readInteger? number = some m) (hread' : Text.readInteger? number' = some n)
    (h : read .sqlserver ws = {}) :
    read .sqlserver (ws ++ ts ++ ["OFFSET", number, "ROWS"]
      ++ ["FETCH", "NEXT", number', "ROWS", "ONLY"]) = { limit? := some n, offset? := some m } := by
  obtain ⟨hws, -, -⟩ := read_sqlserver_eq_empty.mp h
  have htop := cutTop_append_right
    (ts ++ ["OFFSET", number, "ROWS"] ++ ["FETCH", "NEXT", number', "ROWS", "ONLY"]) hfrom
    (by rw [hws])
  rw [← List.append_assoc, ← List.append_assoc] at htop
  have hlimit : cutEndClause ["FETCH", "NEXT"] ["ROWS", "ONLY"]
      (ws ++ ts ++ ["OFFSET", number, "ROWS"] ++ ["FETCH", "NEXT", number', "ROWS", "ONLY"]) =
        (some n, ws ++ ts ++ ["OFFSET", number, "ROWS"]) := cutEndClause_append hread'
  simp only [read, if_true, htop, hlimit, cutEndClause_rows _ hread]

theorem cutEndClause_limit (ws : List String) (hread : Text.readInteger? number = some n) :
    cutEndClause ["LIMIT"] [] (ws ++ ["LIMIT", number]) = (some n, ws) := cutEndClause_append hread

theorem read_append_limit (hd : d ≠ .sqlserver) (hread : Text.readInteger? number = some n) :
    read d (ws ++ ["LIMIT", number]) = { limit? := some n } := by
  have hoffset : cutEndClause ["OFFSET"] [] (ws ++ ["LIMIT", number]) =
      (none, ws ++ ["LIMIT", number]) := by
    refine cutEndClause_eq_none.mpr fun number' rest hwords => ?_
    have hreverse := congrArg List.reverse hwords
    simp at hreverse
  simp only [read, if_neg hd, hoffset, cutEndClause_limit ws hread]

theorem read_append_offset (hd : d ≠ .sqlserver) (hread : Text.readInteger? number = some m) :
    read d (ws ++ ["OFFSET", number]) =
      { limit? := (cutEndClause ["LIMIT"] [] ws).1, offset? := some m } := by
  have hoffset : cutEndClause ["OFFSET"] [] (ws ++ ["OFFSET", number]) = (some m, ws) :=
    cutEndClause_append hread
  simp only [read, if_neg hd, hoffset]

end Reading

end Paging

end TableAccess
