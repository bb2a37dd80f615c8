import Mathlib.Data.List.Induction
import Mathlib.Data.String.Basic
import Mathlib.Tactic.SplitIfs
import TableAccess.Json.Basic

/-!
# The keys of untyped objects

The members of an untyped object are put in the order of their keys one after another, so each key
stands once and has its last value, and without repeated keys no member is lost. The order is that
of the characters of the keys, and the bytes that encode the keys are in the same order.
-/
namespace TableAccess

namespace Text

/-- The bytes that encode a text. -/
def bytes (s : String) : List UInt8 := s.toUTF8.data.toList

theorem bytes_eq_flatMap (s : String) : bytes s = s.toList.flatMap String.utf8EncodeChar := by
  have hbytes : s.toUTF8 = (s.toList.flatMap String.utf8EncodeChar).toByteArray :=
    String.utf8Encode_toList.symm
  rw [bytes, hbytes, List.data_toByteArray]

/-- Which of two characters comes first is settled within their own bytes, whatever follows. -/
theorem utf8EncodeChar_append_lt {c d : Char} (h : c < d) (us vs : List UInt8) :
    String.utf8EncodeChar c ++ us < String.utf8EncodeChar d ++ vs := by
  have hlt : c.val.toNat < d.val.toNat := h
  have hvalid : d.val.toNat < 1114112 := by
    rcases d.valid with hd | ⟨-, hd⟩ <;> omega
  -- Six bits are split off at a time, so that one quotient is a part of the next.
  have hquotients : ∀ n, n / 4096 = n / 64 / 64 ∧ n / 262144 = n / 64 / 64 / 64 := by
    intro n
    simp only [Nat.div_div_eq_div_mul]
    exact ⟨trivial, trivial⟩
  simp only [String.utf8EncodeChar, hquotients]
  generalize c.val.toNat = m at hlt
  generalize d.val.toNat = n at hlt hvalid
  split_ifs <;>
    simp only [List.cons_append, List.nil_append, List.cons_lt_cons_iff, UInt8.lt_iff_toNat_lt,
      ← UInt8.toNat_inj, UInt8.toNat_ofNat'] <;>
    omega

/-- The bytes of two texts are in the order of the texts. -/
theorem bytes_lt_bytes {s t : String} (h : s < t) : bytes s < bytes t := by
  rw [String.lt_iff_toList_lt] at h
  rw [bytes_eq_flatMap, bytes_eq_flatMap]
  generalize s.toList = cs at h
  generalize t.toList = ds at h
  induction cs generalizing ds with
  | nil =>
    cases ds with
    | nil => exact absurd h (List.not_lt_nil _)
    | cons d ds =>
      obtain ⟨b, bs, hb⟩ := List.exists_cons_of_ne_nil (String.utf8EncodeChar_ne_nil (c := d))
      rw [List.flatMap_cons, hb]
      exact List.nil_lt_cons _ _
  | cons c cs ih =>
    cases ds with
    | nil => exact absurd h (List.not_lt_nil _)
    | cons d ds =>
      rw [List.flatMap_cons, List.flatMap_cons]
      rcases List.cons_lt_cons_iff.mp h with hlt | ⟨rfl, hrest⟩
      · exact utf8EncodeChar_append_lt hlt _ _
      · exact List.append_left_lt (ih ds hrest)

end Text

namespace Json
variable {α : Type} {key k : String} {a : α} {members : List (String × α)} {m : String × α}

/-- The members stand in the order of their keys, each key once. -/
def Ordered (members : List (String × α)) : Prop := members.Pairwise fun m n => m.1 < n.1

theorem mem_insertMember (h : m ∈ insertMember key a members) : m = (key, a) ∨ m ∈ members := by
  induction members with
  | nil => simpa [insertMember] using h
  | cons e members ih =>
    simp only [insertMember] at h
    split_ifs at h
    · simpa using h
    · rcases List.mem_cons.mp h with rfl | h
      · exact .inl rfl
      · exact .inr (List.mem_cons_of_mem _ h)
    · rcases List.mem_cons.mp h with rfl | h
      · exact .inr List.mem_cons_self
      · rcases ih h with rfl | h
        · exact .inl rfl
        · exact .inr (List.mem_cons_of_mem _ h)

theorem self_mem_insertMember (key : String) (a : α) (members : List (String × α)) :
    (key, a) ∈ insertMember key a members := by
  induction members with
  | nil => simp [insertMember]
  | cons e members ih =>
    simp only [insertMember]
    split_ifs
    · exact List.mem_cons_self
    · exact List.mem_cons_self
    · exact List.mem_cons_of_mem _ ih

/-- Only a member with the same key gives way to a new one. -/
theorem mem_insertMember_of_ne (hm : m ∈ members) (hkey : m.1 ≠ key) (a : α) :
    m ∈ insertMember key a members := by
  induction members with
  | nil => cases hm
  | cons e members ih =>
    simp only [insertMember]
    split_ifs with hlt heq
    · exact List.mem_cons_of_mem _ hm
    · rcases List.mem_cons.mp hm with rfl | hm
      · exact absurd heq.symm hkey
      · exact List.mem_cons_of_mem _ hm
    · rcases List.mem_cons.mp hm with rfl | hm
      · exact List.mem_cons_self
      · exact List.mem_cons_of_mem _ (ih hm)

theorem find?_insertMember (key k : String) (a : α) (members : List (String × α)) :
    (insertMember key a members).find? (·.1 == k) =
      if k = key then some (key, a) else members.find? (·.1 == k) := by
  induction members with
  | nil =>
    by_cases hk : k = key
    · simp [insertMember, hk]
    · simp [insertMember, hk, Ne.symm hk]
  | cons e members ih =>
    by_cases hk : k = key
    · subst hk
      simp only [insertMember]
      split_ifs with hlt heq
      · simp
      · simp
      · rw [List.find?_cons_of_neg (by simpa using Ne.symm heq), ih, if_pos rfl]
    · have hkey : (key == k) = false := by simpa using Ne.symm hk
      rw [if_neg hk] at ih ⊢
      simp only [insertMember]
      split_ifs with hlt heq
      · simp only [List.find?_cons, hkey]
      · simp only [List.find?_cons, ← heq, hkey]
      · simp only [List.find?_cons, ih]

theorem Ordered.insertMember (h : Ordered members) (key : String) (a : α) :
    Ordered (insertMember key a members) := by
  induction members with
  | nil => exact List.pairwise_singleton _ _
  | cons e members ih =>
    obtain ⟨hfirst, hrest⟩ := List.pairwise_cons.mp h
    simp only [Json.insertMember]
    split_ifs with hlt hkey
    · refine List.pairwise_cons.mpr ⟨?_, h⟩
      exact List.forall_mem_cons.mpr ⟨hlt, fun m hm => String.lt_trans hlt (hfirst m hm)⟩
    · exact List.pairwise_cons.mpr ⟨fun m hm => hkey ▸ hfirst m hm, hrest⟩
    · refine List.pairwise_cons.mpr ⟨fun m hm => ?_, ih hrest⟩
      rcases mem_insertMember hm with rfl | hm
      · exact (lt_trichotomy e.1 key).resolve_right (by simp [hlt, Ne.symm hkey])
      · exact hfirst m hm

theorem Ordered.nodup (h : Ordered members) : (members.map (·.1)).Nodup :=
  List.pairwise_map.mpr (h.imp fun hlt => ne_of_lt hlt)

theorem sortMembers_append_singleton (members : List (String × α)) (m : String × α) :
    sortMembers (members ++ [m]) = insertMember m.1 m.2 (sortMembers members) := by
  simp [sortMembers, List.foldl_append]

theorem ordered_sortMembers (members : List (String × α)) : Ordered (sortMembers members) := by
  induction members using List.reverseRecOn with
  | nil => exact .nil
  | append_singleton members m ih =>
    rw [sortMembers_append_singleton]
    exact ih.insertMember m.1 m.2

/-- The last member of a key is what is left of its members. -/
theorem find?_sortMembers (members : List (String × α)) (k : String) :
    (sortMembers members).find? (·.1 == k) = members.reverse.find? (·.1 == k) := by
  induction members using List.reverseRecOn with
  | nil => rfl
  | append_singleton members m ih =>
    rw [sortMembers_append_singleton, find?_insertMember, ih, List.reverse_append]
    by_cases hk : m.1 = k
    · simp [← hk]
    · simp [hk, Ne.symm hk]

/-- No member is lost if no key is repeated. -/
theorem mem_sortMembers (h : (members.map (·.1)).Nodup) (hm : m ∈ members) :
    m ∈ sortMembers members := by
  induction members using List.reverseRecOn with
  | nil => cases hm
  | append_singleton members e ih =>
    rw [List.map_append] at h
    obtain ⟨hnodup, -, hdisjoint⟩ := List.nodup_append.mp h
    rw [sortMembers_append_singleton]
    rcases List.mem_append.mp hm with hm | hm
    · refine mem_insertMember_of_ne (ih hnodup hm) ?_ e.2
      exact hdisjoint _ (List.mem_map_of_mem hm) _ List.mem_cons_self
    · obtain rfl := List.mem_singleton.mp hm
      exact self_mem_insertMember m.1 m.2 _

end Json

end TableAccess
