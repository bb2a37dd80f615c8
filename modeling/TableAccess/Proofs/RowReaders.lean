import TableAccess.Proofs.KeyOrder
import TableAccess.Proofs.Limits
import TableAccess.Proofs.RowTexts

/-!
# The two readers of rows

A row is read from a document member by member as it is written, or from the untyped data that the
document denotes, where the members are in the order of their keys and the last of repeated
members is left. Both ways take each member for the same value, so the rows hold the same and differ
in the order of their columns at most.
-/
namespace TableAccess

namespace Json

/-- The value that a number stands for: an integer that fits a signed word, or the floating-point
number nearest to one that fits an unsigned word only; any other literal is floating point, among
them zero with a sign, and stands for nothing if it is too large. -/
inductive Literal.StandsFor (l : Literal) : Option Value → Prop
  | int {i : Int64} (hwhole : l.IsWhole) (hi : i.toInt = l.integer)
      (hzero : l.negative = true → l.integer ≠ 0) : StandsFor l (some (.int i))
  | word (hwhole : l.IsWhole) (hlow : 2 ^ 63 ≤ l.integer) (hhigh : l.integer < 2 ^ 64) :
      StandsFor l (some (.float (.ofInt l.integer)))
  | float (h : ¬ l.IsWhole ∨ l.negative = true ∧ l.integer = 0 ∨ l.integer < -2 ^ 63 ∨
      2 ^ 64 ≤ l.integer) : StandsFor l (l.float?.map fun x => .float x.val)

section Literals
variable {l : Literal}

theorem int?_of_not_isWhole (h : ¬ l.IsWhole) : l.int? = none := by
  rw [Literal.int?, if_pos]
  rw [Literal.IsWhole, not_and_or] at h
  rw [Bool.or_eq_true]
  exact h.imp Option.isSome_iff_ne_none.mpr Option.isSome_iff_ne_none.mpr

theorem Literal.standsFor_ofDocument? (l : Literal) :
    l.StandsFor (Value.ofDocument? (.number l)) := by
  cases hint : l.int? with
  | none =>
    have hvalue : Value.ofDocument? (.number l) = l.float?.map fun x => .float x.val := by
      rw [Value.ofDocument?, Literal.value?, hint]
      cases l.float? <;> rfl
    rw [hvalue]
    by_cases hwhole : l.IsWhole
    · exact .float (.inr ((Literal.int?_eq_none hwhole).mp hint))
    · exact .float (.inl hwhole)
  | some i =>
    have hwhole : l.IsWhole := by
      by_contra hnot
      rw [int?_of_not_isWhole hnot] at hint
      cases hint
    obtain ⟨hi, hzero⟩ := (Literal.int?_eq_some hwhole).mp hint
    have hrange := i.inRange
    have hvalue : Value.ofDocument? (.number l) = some (Value.ofInteger l.integer) := by
      rw [Value.ofDocument?, Literal.value?, hint, ← hi]
      rfl
    have hmin : Int64.minValue.toInt = -2 ^ 63 := rfl
    have hmax : Int64.maxValue.toInt = 2 ^ 63 - 1 := rfl
    rw [hvalue, Value.ofInteger]
    split_ifs with hfits
    · exact .int hwhole (Int64.toInt_ofInt_of_le (by omega) (by omega)) hzero
    · exact .word hwhole (by omega) (by omega)

end Literals

namespace Document

/-- A single value: null, a truth value, a number in range or a text. -/
inductive IsScalar : Document → Prop
  | null : IsScalar .null
  | bool (b : Bool) : IsScalar (.bool b)
  | number {l : Literal} {n : Numeric} (h : l.value? = some n) : IsScalar (.number l)
  | string (s : String) : IsScalar (.string (some s))

inductive IsNested : Document → Prop
  | array (items : List Document) : IsNested (.array items)
  | object (members : List (Option String × Document)) : IsNested (.object members)

/-- A document that denotes nothing, whatever it is read for: a number out of range, or a string
with half of a surrogate pair. -/
inductive IsBroken : Document → Prop
  | number {l : Literal} (h : l.value? = none) : IsBroken (.number l)
  | string : IsBroken (.string none)

end Document

section Values
variable {depth : Nat} {d : Document}

/-- A value is the same by way of untyped data. -/
theorem ofJson?_of_ofDocument? (depth : Nat) (d : Document) :
    (ofDocument? depth d).bind Value.ofJson? = Value.ofDocument? d := by
  cases d with
  | null => cases depth <;> rfl
  | bool b => cases depth <;> rfl
  | number l =>
    have hnumber : ofDocument? depth (.number l) = l.value?.map ofNumeric := by
      cases depth <;> rfl
    rw [hnumber, Value.ofDocument?]
    rcases l.value? with _ | _ | _ <;> rfl
  | string s =>
    have hstring : ofDocument? depth (.string s) = s.map .string := by cases depth <;> rfl
    rw [hstring]
    cases s <;> rfl
  | array items =>
    cases depth with
    | zero => rfl
    | succ depth =>
      rw [ofDocument?]
      cases ofItems? depth items <;> rfl
  | object members =>
    cases depth with
    | zero => rfl
    | succ depth =>
      rw [ofDocument?]
      cases ofFields? depth members <;> rfl

theorem exists_ofDocument?_iff : (∃ v, Value.ofDocument? d = some v) ↔ d.IsScalar := by
  constructor
  · rintro ⟨v, hv⟩
    cases d with
    | null => exact .null
    | bool b => exact .bool b
    | number l =>
      obtain ⟨n, hn, -⟩ := Option.map_eq_some_iff.mp hv
      exact .number hn
    | string s =>
      obtain ⟨s, rfl, -⟩ := Option.map_eq_some_iff.mp hv
      exact .string s
    | array items => cases hv
    | object members => cases hv
  · rintro (_ | _ | hn | _)
    · exact ⟨_, rfl⟩
    · exact ⟨_, rfl⟩
    · rw [Value.ofDocument?, hn]
      exact ⟨_, rfl⟩
    · exact ⟨_, rfl⟩

theorem Document.IsNested.ofDocument? (h : d.IsNested) : Value.ofDocument? d = none := by
  cases h <;> rfl

theorem Document.IsBroken.ofDocument? (h : d.IsBroken) (depth : Nat) :
    Json.ofDocument? depth d = none := by
  cases h with
  | number hn => cases depth <;> simp [Json.ofDocument?, hn]
  | string => cases depth <;> rfl

end Values

section Fields
variable {depth : Nat} {fields : List (Option String × Document)} {ms : List (String × Json)}

theorem ofFields?_eq_some : ofFields? depth fields = some ms ↔
    List.Forall₂ (fun f m => f.1 = some m.1 ∧ ofDocument? depth f.2 = some m.2) fields ms := by
  induction fields generalizing ms with
  | nil => cases depth <;> simp [ofFields?, eq_comm]
  | cons f fields ih =>
    obtain ⟨key, d⟩ := f
    simp only [ofFields?, bind, Option.bind_eq_some_iff, pure, Option.some.injEq,
      List.forall₂_cons_left_iff, ih]
    constructor
    · rintro ⟨key, hkey, x, hx, ms, hms, rfl⟩
      exact ⟨(key, x), ms, ⟨hkey, hx⟩, hms, rfl⟩
    · rintro ⟨m, ms, ⟨hkey, hx⟩, hms, rfl⟩
      exact ⟨m.1, hkey, m.2, hx, ms, hms, rfl⟩

theorem map_fst_of_ofFields? (h : ofFields? depth fields = some ms) :
    ms.map (·.1) = fields.filterMap (·.1) := by
  rw [ofFields?_eq_some] at h
  induction h with
  | nil => rfl
  | cons hm _ ih => rw [List.map_cons, List.filterMap_cons_some hm.1, ih]

end Fields

end Json

namespace Row
open Json
variable {members : List (Option String × Document)} {ms : List (String × Json)}
  {entries : List (String × Value)}

/-- What is read of a document is read of the untyped data that it denotes. -/
theorem exists_ofFields? (h : ReadFromDocument members entries) (depth : Nat) :
    ∃ ms, ofFields? depth members = some ms ∧ ReadFromJson ms entries := by
  induction h with
  | nil => exact ⟨[], ofFields?_eq_some.mpr .nil, .nil⟩
  | @cons _ e _ _ hm _ ih =>
    obtain ⟨hkey, hvalue⟩ := hm
    obtain ⟨ms, hms, hread⟩ := ih
    rw [← ofJson?_of_ofDocument? depth] at hvalue
    obtain ⟨x, hx, hv⟩ := Option.bind_eq_some_iff.mp hvalue
    exact ⟨(e.1, x) :: ms, ofFields?_eq_some.mpr (.cons ⟨hkey, hx⟩ (ofFields?_eq_some.mp hms)),
      .cons ⟨rfl, hv⟩ hread⟩

/-- Where a member is put depends on the keys alone. -/
theorem ReadFromJson.insertMember {m : String × Json} {e : String × Value}
    (h : ReadFromJson ms entries) (hm : m.1 = e.1 ∧ Value.ofJson? m.2 = some e.2) :
    ReadFromJson (insertMember m.1 m.2 ms) (insertMember e.1 e.2 entries) := by
  obtain ⟨hkey, hvalue⟩ := hm
  rw [hkey]
  induction h with
  | nil => exact .cons ⟨rfl, hvalue⟩ .nil
  | cons hfirst hrest ih =>
    simp only [Json.insertMember, hfirst.1]
    split_ifs
    · exact .cons ⟨rfl, hvalue⟩ (.cons ⟨rfl, hfirst.2⟩ hrest)
    · exact .cons ⟨rfl, hvalue⟩ hrest
    · exact .cons ⟨rfl, hfirst.2⟩ ih

theorem ReadFromJson.sortMembers (h : ReadFromJson ms entries) :
    ReadFromJson (sortMembers ms) (sortMembers entries) := by
  have hstep : ∀ ms entries, ReadFromJson ms entries → ∀ (m : String × Json) (e : String × Value),
      m.1 = e.1 ∧ Value.ofJson? m.2 = some e.2 →
        ReadFromJson (Json.insertMember m.1 m.2 ms) (Json.insertMember e.1 e.2 entries) :=
    fun _ _ hms _ _ hm => hms.insertMember hm
  exact List.rel_foldl hstep List.Forall₂.nil h

/-- The row of entries in the order of their columns. -/
def sorted (entries : List (String × Value)) : Row :=
  ⟨Json.sortMembers entries, (ordered_sortMembers entries).nodup⟩

theorem ofJson?_ofMembers (h : ReadFromJson ms entries) :
    ofJson? (ofMembers ms) = some (sorted entries) := by
  refine ofJson?_eq_some.mpr ⟨_, _, rfl, h.sortMembers, ?_⟩
  exact (ofList_entries (sorted entries)).symm

/-- The rows that are read of the same entries, in the order of the document and in the order of
the columns: the last of repeated entries counts. -/
structure DecodedFrom (entries : List (String × Value)) (r r' : Row) : Prop where
  get?_eq : ∀ k, r.get? k = (entries.reverse.find? (·.1 == k)).map (·.2)
  same : ∀ k, r'.get? k = r.get? k
  perm : r'.columns.Perm r.columns
  columns_eq : r.columns = (entries.map (·.1)).eraseDups
  ordered : r'.columns.Pairwise fun c c' => Text.bytes c < Text.bytes c'

theorem decodedFrom_sorted (entries : List (String × Value)) :
    DecodedFrom entries (ofList entries) (sorted entries) := by
  have hordered := ordered_sortMembers entries
  have hsame : ∀ k, (sorted entries).get? k = (ofList entries).get? k := by
    intro k
    rw [get?_ofList, get?, sorted, find?_sortMembers]
  refine ⟨get?_ofList entries, hsame, ?_, columns_ofList entries, ?_⟩
  · refine (List.perm_ext_iff_of_nodup (nodup_columns _) (nodup_columns _)).mpr fun k => ?_
    rw [mem_columns_iff, hsame]
    exact mem_columns_iff.symm
  · exact List.pairwise_map.mpr (hordered.imp fun hlt => Text.bytes_lt_bytes hlt)

/-- What becomes of an object that is read as a row in the two ways: of single values both make
rows, and both refuse what holds an array or an object, as long as no later member takes its place,
and what holds something that denotes nothing. -/
structure DecodedAlike (members : List (Option String × Document)) (typed untyped : Option Row) :
    Prop where
  scalars : (∀ m ∈ members, m.1.isSome ∧ m.2.IsScalar) →
    ∃ entries r r', ReadFromDocument members entries ∧ typed = some r ∧ untyped = some r' ∧
      DecodedFrom entries r r'
  nested : (members.filterMap (·.1)).Nodup → (∃ m ∈ members, m.2.IsNested) →
    typed = none ∧ untyped = none
  broken : (∃ m ∈ members, m.1 = none ∨ m.2.IsBroken) → typed = none ∧ untyped = none

theorem ofDocument?_eq_none (h : ∃ m ∈ members, m.1 = none ∨ Value.ofDocument? m.2 = none) :
    ofDocument? (.object members) = none := by
  obtain ⟨m, hm, hnone⟩ := h
  refine Option.eq_none_iff_forall_ne_some.mpr fun r hr => ?_
  obtain ⟨_, entries, hobject, hread, -⟩ := ofDocument?_eq_some.mp hr
  cases hobject
  obtain ⟨e, -, hkey, hvalue⟩ := exists_mem_of_forall₂ hread.flip hm
  rcases hnone with hnone | hnone
  · rw [hnone] at hkey
    cases hkey
  · rw [hnone] at hvalue
    cases hvalue

/-- An object without repeated keys is no row if one of its members is no value. -/
theorem ofJson?_ofMembers_eq_none {depth : Nat} (hms : ofFields? depth members = some ms)
    (hnodup : (members.filterMap (·.1)).Nodup)
    (h : ∃ m ∈ members, Value.ofDocument? m.2 = none) : ofJson? (ofMembers ms) = none := by
  obtain ⟨m, hm, hnone⟩ := h
  refine Option.eq_none_iff_forall_ne_some.mpr fun r hr => ?_
  obtain ⟨_, entries, hobject, hread, -⟩ := ofJson?_eq_some.mp hr
  cases hobject
  obtain ⟨n, hn, -, hdocument⟩ := exists_mem_of_forall₂ (ofFields?_eq_some.mp hms).flip hm
  rw [← map_fst_of_ofFields? hms] at hnodup
  obtain ⟨e, -, -, hvalue⟩ := exists_mem_of_forall₂ hread.flip (mem_sortMembers hnodup hn)
  rw [← ofJson?_of_ofDocument? depth, hdocument, Option.bind_some, hvalue] at hnone
  cases hnone

theorem ofFields?_eq_none {depth : Nat} (h : ∃ m ∈ members, m.1 = none ∨ m.2.IsBroken) :
    ofFields? depth members = none := by
  obtain ⟨m, hm, hnone⟩ := h
  refine Option.eq_none_iff_forall_ne_some.mpr fun ms hms => ?_
  obtain ⟨n, -, hkey, hdocument⟩ := exists_mem_of_forall₂ (ofFields?_eq_some.mp hms).flip hm
  rcases hnone with hnone | hbroken
  · rw [hnone] at hkey
    cases hkey
  · rw [hbroken.ofDocument? depth] at hdocument
    cases hdocument

/-- An object is read as a row alike in the two ways. -/
theorem decodedAlike (members : List (Option String × Document)) (depth : Nat) :
    DecodedAlike members (ofDocument? (.object members))
      ((Json.ofDocument? (depth + 1) (.object members)).bind ofJson?) where
  scalars h := by
    have hentries : ∃ entries, ReadFromDocument members entries := by
      refine exists_forall₂_iff.mpr fun m hm => ?_
      obtain ⟨hkey, hscalar⟩ := h m hm
      obtain ⟨key, hkey⟩ := Option.isSome_iff_exists.mp hkey
      obtain ⟨v, hv⟩ := exists_ofDocument?_iff.mpr hscalar
      exact ⟨(key, v), hkey, hv⟩
    obtain ⟨entries, hread⟩ := hentries
    obtain ⟨ms, hms, hjson⟩ := exists_ofFields? hread depth
    refine ⟨entries, ofList entries, sorted entries, hread, ?_, ?_,
      decodedFrom_sorted entries⟩
    · exact ofDocument?_eq_some.mpr ⟨members, entries, rfl, hread, rfl⟩
    · rw [Json.ofDocument?, hms, Option.map_some, Option.bind_some, ofJson?_ofMembers hjson]
  nested hnodup h := by
    obtain ⟨m, hm, hnested⟩ := h
    refine ⟨ofDocument?_eq_none ⟨m, hm, .inr hnested.ofDocument?⟩, ?_⟩
    rw [Json.ofDocument?]
    cases hms : ofFields? depth members with
    | none => rfl
    | some ms => exact ofJson?_ofMembers_eq_none hms hnodup ⟨m, hm, hnested.ofDocument?⟩
  broken h := by
    refine ⟨ofDocument?_eq_none ?_, ?_⟩
    · obtain ⟨m, hm, hnone⟩ := h
      refine ⟨m, hm, hnone.imp_right fun hbroken => ?_⟩
      rw [← ofJson?_of_ofDocument? depth, hbroken.ofDocument? depth, Option.bind_none]
    · rw [Json.ofDocument?, ofFields?_eq_none h]
      rfl

/-- The two ways to read a row from a text agree, and a number literal is the same value in
both. -/
theorem rows_decoded_alike :
    (∀ s members, Document.read? s = some (.object members) →
      DecodedAlike members (parse? s) ((Json.parse? s).bind ofJson?)) ∧
    ∀ (l : Literal) (depth : Nat),
      l.StandsFor (Value.ofDocument? (.number l)) ∧
      (Json.ofDocument? depth (.number l)).bind Value.ofJson? = Value.ofDocument? (.number l) := by
  refine ⟨fun s members h => ?_, fun l depth => ?_⟩
  · rw [parse?, Json.parse?, h]
    exact decodedAlike members 126
  · exact ⟨l.standsFor_ofDocument?, ofJson?_of_ofDocument? depth (.number l)⟩

/-- A repeated key, a number that fits an unsigned word only, and keys whose characters are not in
the order of their units of 16 bits. -/
theorem rows_decoded_alike_repeated :
    let text := "\x7b\"𝄞\":1,\"｡\":\"x\",\"a\":9223372036854775808,\"𝄞\":null\x7d"
    let members : List (Option String × Document) := [(some "𝄞", .number (.ofInt 1)),
      (some "｡", .string (some "x")), (some "a", .number (.ofInt 9223372036854775808)),
      (some "𝄞", .null)]
    let a : Value := .float (.ofInt 9223372036854775808)
    let r : Row := { entries := [("𝄞", .null), ("｡", .text "x"), ("a", a)] }
    let r' : Row := { entries := [("a", a), ("｡", .text "x"), ("𝄞", .null)] }
    Document.read? text = some (.object members) ∧ (∀ m ∈ members, m.1.isSome ∧ m.2.IsScalar) ∧
      parse? text = some r ∧ (Json.parse? text).bind ofJson? = some r' ∧
      ∃ entries, ReadFromDocument members entries ∧ DecodedFrom entries r r' := by
  intro text members a r r'
  have hmembers : List.Forall₂ (fun (m : String × Json) d => Reads m.2.compress.toList d)
      [("𝄞", .int 1), ("｡", .string "x"), ("a", .int 9223372036854775808), ("𝄞", .null)]
      (members.map (·.2)) :=
    .cons (reads_int 1) (.cons (reads_quote "x")
      (.cons (reads_int 9223372036854775808) (.cons reads_null .nil)))
  have hread : Document.read? text = some (.object members) :=
    (reads_compress_object hmembers).read?
  have hscalar : ∀ m ∈ members, m.1.isSome ∧ m.2.IsScalar := by
    have hone : (Literal.ofInt 1).value? = some (.int 1) := Literal.value?_ofInt 1
    have hword : (Literal.ofInt 9223372036854775808).value? = some (.int 9223372036854775808) :=
      Literal.value?_ofInt 9223372036854775808
    simp only [members, List.forall_mem_cons, List.not_mem_nil, false_implies, implies_true,
      and_true]
    exact ⟨⟨rfl, .number hone⟩, ⟨rfl, .string "x"⟩, ⟨rfl, .number hword⟩, rfl, .null⟩
  have htyped : parse? text = some r := by decide +kernel
  have huntyped : (Json.parse? text).bind ofJson? = some r' := by decide +kernel
  obtain ⟨entries, q, q', hentries, hq, hq', hdecoded⟩ :=
    (rows_decoded_alike.1 text members hread).scalars hscalar
  obtain rfl : r = q := Option.some.inj (htyped.symm.trans hq)
  obtain rfl : r' = q' := Option.some.inj (huntyped.symm.trans hq')
  exact ⟨hread, hscalar, htyped, huntyped, entries, hentries, hdecoded⟩

end Row

end TableAccess
