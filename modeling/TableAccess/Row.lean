import TableAccess.Value

/-!
# Rows

A row maps column names to values and keeps its columns in the order in which they were first
set. Setting a column again replaces the value where it stands.
-/
namespace TableAccess

namespace Row
variable {α : Type} {key k : String} {a : α} {entries : List (String × α)}

/-- Replaces the value of a key in place, or appends the key. -/
def setEntry (key : String) (value : α) : List (String × α) → List (String × α)
  | [] => [(key, value)]
  | (k, v) :: rest => if k = key then (k, value) :: rest else (k, v) :: setEntry key value rest

theorem mem_keys_setEntry :
    k ∈ (setEntry key a entries).map (·.1) ↔ k = key ∨ k ∈ entries.map (·.1) := by
  induction entries with
  | nil => simp [setEntry]
  | cons e entries ih =>
    by_cases he : e.1 = key
    · simp [setEntry, he]
    · simp only [setEntry, he, if_false, List.map_cons, List.mem_cons, ih]
      exact or_left_comm

theorem nodup_setEntry (h : (entries.map (·.1)).Nodup) :
    ((setEntry key a entries).map (·.1)).Nodup := by
  induction entries with
  | nil => simp [setEntry]
  | cons e entries ih =>
    obtain ⟨hnotMem, hnodup⟩ := List.nodup_cons.mp h
    by_cases he : e.1 = key
    · simpa [setEntry, he] using h
    · have hkeys : e.1 ∉ (setEntry key a entries).map (·.1) := by
        rw [mem_keys_setEntry]
        exact not_or.mpr ⟨he, hnotMem⟩
      simpa [setEntry, he] using ⟨by simpa using hkeys, by simpa using ih hnodup⟩

end Row

/-- Columns with their values, in order, each column once. -/
@[ext]
structure Row where
  entries : List (String × Value) := []
  nodup : (entries.map (·.1)).Nodup := by decide
  deriving DecidableEq

namespace Row

def empty : Row := {}

def set (r : Row) (column : String) (value : Value) : Row :=
  ⟨setEntry column value r.entries, nodup_setEntry r.nodup⟩

def get? (r : Row) (column : String) : Option Value :=
  (r.entries.find? (·.1 == column)).map (·.2)

def contains (r : Row) (column : String) : Bool := r.entries.any (·.1 == column)

def erase (r : Row) (column : String) : Row :=
  ⟨r.entries.eraseP (·.1 == column), r.nodup.sublist (List.eraseP_sublist.map _)⟩

def filter (r : Row) (keep : String → Value → Bool) : Row :=
  ⟨r.entries.filter fun e => keep e.1 e.2, r.nodup.sublist (List.filter_sublist.map _)⟩

def size (r : Row) : Nat := r.entries.length

def isEmpty (r : Row) : Bool := r.entries.isEmpty

def columns (r : Row) : List String := r.entries.map (·.1)

def values (r : Row) : List Value := r.entries.map (·.2)

def setAll (r : Row) (entries : List (String × Value)) : Row :=
  entries.foldl (fun r e => r.set e.1 e.2) r

def ofList (entries : List (String × Value)) : Row := empty.setAll entries

def merge (r other : Row) : Row := r.setAll other.entries

/-- Equality as data: the same columns in the same order with equal values. -/
def equal (r other : Row) : Bool :=
  r.entries.length == other.entries.length
    && (r.entries.zip other.entries).all fun p => p.1.1 == p.2.1 && p.1.2.equal p.2.2

/-- The row of an untyped object, all of whose members must be single values. -/
def ofJson? : Json → Option Row
  | .object members =>
    (members.mapM fun m => (Value.ofJson? m.2).map (m.1, ·)).map ofList
  | _ => none

/-- The row of a document, in the order of the document. -/
def ofDocument? : Json.Document → Option Row
  | .object members =>
    (members.mapM fun (m : Option String × Json.Document) => do
      let key ← m.1
      let value ← Value.ofDocument? m.2
      return (key, value)).map ofList
  | _ => none

def parse? (s : String) : Option Row := (Json.Document.read? s).bind ofDocument?

def toDocumentText (r : Row) : String :=
  (Json.object (r.entries.map fun e => (e.1, e.2.toJson))).compress

end Row

end TableAccess
