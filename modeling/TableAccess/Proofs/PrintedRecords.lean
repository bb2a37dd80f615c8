import TableAccess.Proofs.PrintedData
import TableAccess.Proofs.RowHistories
import TableAccess.Schema.Column

/-!
# Printed values and records

What is printed of a value is read as the value again. `Restores` says it of one reader, so that
the lemmas for optional values, lists and records are made of those for their parts. Null stands
for a value that is missing, so a reader that takes null for a value of its own does not get it
back through an option.
-/
namespace TableAccess

namespace Json
variable {α : Type} {read : Document → Option α} {j : Json} {a : α}

/-- Data are printed as a text in which a reader finds a value. -/
def Restores (read : Document → Option α) (j : Json) (a : α) : Prop :=
  ∃ d, Reads j.compress.toList d ∧ read d = some a

theorem Restores.bind_read? (h : Restores read j a) :
    (Document.read? j.compress).bind read = some a := by
  obtain ⟨d, hd, hread⟩ := h
  rw [hd.read?, Option.bind_some, hread]

theorem restores_string (s : String) : Restores Document.text? (.string s) s :=
  ⟨_, reads_quote s, rfl⟩

theorem restores_bool (b : Bool) : Restores Document.bool? (.bool b) b := by
  cases b with
  | false => exact ⟨_, reads_false, rfl⟩
  | true => exact ⟨_, reads_true, rfl⟩

theorem uint32?_number {l : Literal} {i : Integer} (hl : l.value? = some (.int i))
    (h : 0 ≤ i.val ∧ i.val < 2 ^ 32) :
    Document.uint32? (.number l) = some (UInt32.ofNat i.val.toNat) := by
  simp only [Document.uint32?, hl, if_pos h]

theorem restores_uint32 (n : UInt32) : Restores Document.uint32? (.int (.ofUInt32 n)) n := by
  have hlt : n.toNat < 2 ^ 32 := n.toNat_lt
  have hval : (Integer.ofUInt32 n).val = n.toNat := rfl
  refine ⟨_, reads_int _, ?_⟩
  rw [uint32?_number (Literal.value?_ofInt _) (by omega), hval, Int.toNat_natCast,
    UInt32.ofNat_toNat]

theorem restores_null : Restores (Document.nullable? read) .null none :=
  ⟨_, reads_null, rfl⟩

/-- A value comes back through an option, unless null is a text of it. -/
theorem Restores.nullable (h : Restores read j a) (hnull : read .null ≠ some a) :
    Restores (Document.nullable? read) j (some a) := by
  obtain ⟨d, hd, hread⟩ := h
  refine ⟨d, hd, ?_⟩
  cases d with
  | null => exact absurd hread hnull
  | _ => exact congrArg (Option.map some) hread

theorem Restores.list {items : List Json} {as : List α}
    (h : List.Forall₂ (Restores read) items as) :
    Restores (Document.list? read) (.array items) as := by
  have hparts : ∃ ds, List.Forall₂ (fun x d => Reads x.compress.toList d) items ds ∧
      List.Forall₂ (fun d a => read d = some a) ds as := by
    induction h with
    | nil => exact ⟨[], .nil, .nil⟩
    | cons hx _ ih =>
      obtain ⟨d, hd, hread⟩ := hx
      obtain ⟨ds, hds, hreads⟩ := ih
      exact ⟨d :: ds, .cons hd hds, .cons hread hreads⟩
  obtain ⟨ds, hds, hreads⟩ := hparts
  exact ⟨_, reads_compress_array hds, mapM_eq_some.mpr hreads⟩

end Json

namespace Json.Document
variable {name : String} {d : Document}

/-- Of members with different keys there is one with the key of each. -/
theorem filter_key_of_mem {members : List (Option String × Document)}
    {m : Option String × Document} (h : (members.map (·.1)).Nodup) (hm : m ∈ members) :
    members.filter (·.1 == m.1) = [m] := by
  induction members with
  | nil => cases hm
  | cons e members ih =>
    obtain ⟨hnotMem, hnodup⟩ := List.nodup_cons.mp h
    rcases List.mem_cons.mp hm with rfl | hm
    · have hrest : members.filter (·.1 == m.1) = [] := by
        refine List.filter_eq_nil_iff.mpr fun e he heq => hnotMem ?_
        exact List.mem_map.mpr ⟨e, he, by simpa using heq⟩
      rw [List.filter_cons_of_pos (by simp), hrest]
    · have hne : e.1 ≠ m.1 := by
        intro heq
        exact hnotMem (List.mem_map.mpr ⟨m, hm, heq.symm⟩)
      rw [List.filter_cons_of_neg (by simpa using hne), ih hnodup hm]

theorem member?_of_mem {members : List (Option String × Document)}
    (h : (members.map (·.1)).Nodup) (hm : (some name, d) ∈ members) :
    member? name members = some (some d) := by
  rw [member?, filter_key_of_mem h hm]

/-- An object that has each of the names once gives what stands under it. -/
theorem fields?_zip {names : List String} {ds : List Document} (hnodup : names.Nodup)
    (hlength : names.length = ds.length) :
    (Document.object ((names.map some).zip ds)).fields? names = some (ds.map some) := by
  have hkeys : ((names.map some).zip ds).map (·.1) = names.map some :=
    List.map_fst_zip (by simp [hlength])
  have hwhole : ((names.map some).zip ds).all (·.1.isSome) = true := by
    refine List.all_eq_true.mpr fun m hm => ?_
    obtain ⟨name, -, hname⟩ := List.mem_map.mp (List.of_mem_zip hm).1
    rw [← hname, Option.isSome_some]
  have hmembers : List.Forall₂ (fun name d => member? name ((names.map some).zip ds) = some d)
      names (ds.map some) := by
    refine List.forall₂_iff_zip.mpr ⟨by simpa using hlength, fun {name d?} hmem => ?_⟩
    rw [List.zip_map_right] at hmem
    obtain ⟨⟨name', d⟩, hzip, heq⟩ := List.mem_map.mp hmem
    cases heq
    refine member?_of_mem ?_ ?_
    · rw [hkeys]
      exact hnodup.map fun _ _ => Option.some.inj
    · rw [List.zip_map_left]
      exact List.mem_map.mpr ⟨(name', d), hzip, rfl⟩
  rw [fields?, if_pos hwhole]
  exact mapM_eq_some.mpr hmembers

end Json.Document

/-- A record that is printed with all its fields is read with what stands under each of them. -/
theorem Json.exists_reads_record {names : List String} {js : List Json} {ds : List Document}
    (hnodup : names.Nodup) (hlength : names.length = js.length)
    (h : List.Forall₂ (fun j d => Reads j.compress.toList d) js ds) :
    ∃ d, Reads (Json.object (names.zip js)).compress.toList d ∧
      d.fields? names = some (ds.map some) := by
  have hmembers : List.Forall₂ (fun (m : String × Json) d => Reads m.2.compress.toList d)
      (names.zip js) ds := by
    have hsnd : (names.zip js).map (·.2) = js := List.map_snd_zip (Nat.le_of_eq hlength.symm)
    rwa [← hsnd, List.forall₂_map_left_iff] at h
  have hkeys : (names.zip js).map (fun m => some m.1) = names.map some := by
    have hfst : (names.zip js).map (·.1) = names := List.map_fst_zip (Nat.le_of_eq hlength)
    have hmap := congrArg (List.map some) hfst
    rwa [List.map_map] at hmap
  have hds : names.length = ds.length := hlength.trans h.length_eq
  have hread := reads_compress_object hmembers
  rw [hkeys] at hread
  exact ⟨_, hread, Document.fields?_zip hnodup hds⟩

/-- No floating-point number, so the text of the value is exact. -/
def Value.IsExact (v : Value) : Prop := ∀ x, v ≠ .float x

theorem Value.ofInteger_toInt (i : Int64) : ofInteger i.toInt = .int i := by
  rw [ofInteger, if_pos ⟨i.minValue_le_toInt, i.toInt_le⟩, Int64.ofInt_toInt]

/-- A value is read back with its kind. -/
theorem Value.restores_toJson {v : Value} (h : v.IsExact) :
    Json.Restores Value.ofDocument? v.toJson v := by
  cases v with
  | null => exact ⟨_, Json.reads_null, rfl⟩
  | bool b =>
    cases b with
    | false => exact ⟨_, Json.reads_false, rfl⟩
    | true => exact ⟨_, Json.reads_true, rfl⟩
  | int i =>
    have hvalue := Json.Literal.value?_ofInt (.ofInt64 i)
    rw [Json.Integer.val_ofInt64] at hvalue
    refine ⟨_, Json.reads_int i.toInt, ?_⟩
    rw [ofDocument?, hvalue, Option.map_some]
    exact congrArg some (ofInteger_toInt i)
  | float x => exact absurd rfl (h x)
  | text s => exact ⟨_, Json.reads_quote s, rfl⟩

end TableAccess
