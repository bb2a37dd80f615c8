import TableAccess.Proofs.FilterReading
import TableAccess.Proofs.FilteredWrites
import TableAccess.Proofs.NearestNumbers
import TableAccess.Proofs.SelectionParts
import TableAccess.Proofs.Structure

/-!
# Integers in untyped lists

A member of a list goes through a value before it is written as a literal, and there is no value for
an integer from `2 ^ 63` on but the nearest floating-point number. Such a member is written as
another integer with the same nearest number, every other integer as it is.
-/
namespace TableAccess

/-- How an integer of a document is written in a list. -/
inductive WritesInteger (n : Int) : String → Prop
  | exact (h : n < 2 ^ 63) : WritesInteger n (toString n)
  | rounded {m : Int} (h : 2 ^ 63 ≤ n) (htext : (Binary64.ofInt n).toText = toString m)
      (hm : Binary64.ofInt m = Binary64.ofInt n) : WritesInteger n (toString m)

/-- A literal is that of a member if it writes the member's integer. -/
def WritesMember (j : Json) (literal : String) : Prop :=
  ∀ n : Json.Integer, j = .int n → WritesInteger n.val literal

/-- A text holds a list for a column, with a literal for each member. -/
def HoldsList (column : String) (items : List Json) (sql : String) : Prop :=
  ∃ before literals after, ∃ o : Operator, o.isMembership = true ∧
    List.Forall₂ WritesMember items literals ∧
    sql = before ++ (Text.trim column ++ " " ++ o.sql ++ " (" ++ ", ".intercalate literals ++ ")")
      ++ after

variable {column : String} {items : List Json} {vs : List Value} {quote : String → String}
  {c : Clause}

theorem HoldsList.after {sql : String} (h : HoldsList column items sql) (before : String) :
    HoldsList column items (before ++ sql) := by
  obtain ⟨front, literals, back, o, ho, hliterals, rfl⟩ := h
  refine ⟨before ++ front, literals, back, o, ho, hliterals, ?_⟩
  simp only [String.append_assoc]

theorem HoldsList.before {sql : String} (h : HoldsList column items sql) (after : String) :
    HoldsList column items (sql ++ after) := by
  obtain ⟨front, literals, back, o, ho, hliterals, rfl⟩ := h
  refine ⟨front, literals, back ++ after, o, ho, hliterals, ?_⟩
  simp only [String.append_assoc]

/-- The items are read as values. -/
def AreRead (items : List Json) (vs : List Value) : Prop :=
  List.Forall₂ (fun j v => Value.ofJson? j = some v) items vs

theorem writesInteger_literal {n : Json.Integer} {l : String}
    (h : Condition.literal quote c column (Value.ofInteger n.val) = .ok l) :
    WritesInteger n.val l := by
  have hrange := n.inRange
  have hmin : Int64.minValue.toInt = -2 ^ 63 := rfl
  have hmax : Int64.maxValue.toInt = 2 ^ 63 - 1 := rfl
  unfold Value.ofInteger at h
  split_ifs at h with hfits
  · have hint : (Int64.ofInt n.val).toInt = n.val :=
      Int64.toInt_ofInt_of_le (by omega) (by omega)
    cases h
    rw [hint]
    exact .exact (by omega)
  · -- No signed word holds the integer, so the value is its nearest number.
    have hlarge : 2 ^ 63 ≤ n.val := by omega
    have hfinite : (Binary64.ofInt n.val).isFinite = true := Binary64.isFinite_ofInt (by omega)
    obtain ⟨m, htext, hm⟩ := Binary64.exists_toText_ofInt hlarge hrange.2
    simp only [Condition.literal, hfinite, if_true, htext] at h
    cases h
    exact .rounded hlarge htext hm

theorem writesMember_literals {literals : List String} (hitems : AreRead items vs)
    (h : List.Forall₂ (fun v l => Condition.literal quote c column v = .ok l) vs literals) :
    List.Forall₂ WritesMember items literals := by
  induction hitems generalizing literals with
  | nil =>
    cases h
    exact .nil
  | @cons j v items vs hj _ ih =>
    cases h with
    | cons hl hls =>
      refine .cons ?_ (ih hls)
      rintro n rfl
      cases hj
      exact writesInteger_literal hl

namespace Sql.Lexeme

/-- The content of a word stands in the text of the words. -/
theorem exists_spell_of_mem_contents {ts : List Lexeme} {ps : List Piece} (h : ps ∈ contents ts)
    (d : Dialect) (n : Nat) :
    ∃ before k after, Piece.spell d n (allPieces ts) = before ++ Piece.spell d k ps ++ after := by
  obtain ⟨t, ht, hcontent⟩ := List.mem_filterMap.mp h
  have hpieces : t.pieces = ps := by
    cases t <;> cases hcontent <;> rfl
  obtain ⟨front, back, rfl⟩ := List.append_of_mem ht
  let k := n + (Piece.values (allPieces front)).length
  refine ⟨Piece.spell d n (allPieces front), k,
    Piece.spell d (k + (Piece.values ps).length) (allPieces back), ?_⟩
  rw [allPieces_append, allPieces_cons, hpieces, Piece.spell_append, Piece.spell_append,
    ← String.append_assoc]

end Sql.Lexeme

namespace Condition

/-- A comparison with a list is written as the list. -/
theorem WrittenAs.holdsList {op : Option String} {ps : List Sql.Piece} (hitems : AreRead items vs)
    (hne : items ≠ []) (h : WrittenAs quote c (.compare column op (.list vs)) ps) (d : Dialect)
    (n : Nat) : HoldsList column items (Sql.Piece.spell d n ps) := by
  obtain ⟨-, e, he, rfl⟩ := h
  obtain ⟨-, o, -, hlowered⟩ := lowersTo_compare.mp he
  cases lowerOperand_eq_ok.mp hlowered with
  | @members _ literals ho hliterals =>
    have hwritten := writesMember_literals hitems hliterals
    have hliterals_ne : literals ≠ [] := by
      rintro rfl
      exact hne (List.forall₂_nil_right_iff.mp hwritten)
    refine ⟨"", literals, "", o, ho, hwritten, ?_⟩
    rw [Sql.Expr.spell_inLiterals ho hliterals_ne, String.empty_append, String.append_empty]

/-- An entry of a document compares a column with a list, at whatever depth. -/
inductive HasList (column : String) (items : List Json) : Json → Prop
  | here {members : List (String × Json)} (hor : Json.find? "or" members = none)
      (hand : Json.find? "and" members = none) (hraw : Json.find? "raw" members = none)
      (hcolumn : either "col" "column" members = some (.string column))
      (hval : either "val" "value" members = some (.array items)) :
    HasList column items (.object members)
  | any {members : List (String × Json)} {entries : List Json} {j : Json}
      (hor : Json.find? "or" members = some (.array entries)) (hj : j ∈ entries)
      (h : HasList column items j) : HasList column items (.object members)
  | all {members : List (String × Json)} {entries : List Json} {j : Json}
      (hor : Json.find? "or" members = none)
      (hand : Json.find? "and" members = some (.array entries)) (hj : j ∈ entries)
      (h : HasList column items j) : HasList column items (.object members)

theorem leaves_subset_leavesOf {x : Condition} {xs : List Condition} (h : x ∈ xs) :
    x.leaves ⊆ leavesOf xs := by
  induction xs with
  | nil => cases h
  | cons y xs ih =>
    rw [leavesOf]
    rcases List.mem_cons.mp h with rfl | h
    · exact List.subset_append_left _ _
    · exact List.subset_append_of_subset_right _ (ih h)

/-- A list for a column is among the leaves, with the values that its items are read as. -/
def IsAmong (column : String) (items : List Json) (leaves : List Condition) : Prop :=
  ∃ op vs, AreRead items vs ∧ .compare column op (.list vs) ∈ leaves

/-- What one entry is read as is a part of what all of them are read as. -/
theorem isAmong_leavesOf {entries : List Json} {xs : List Condition} {j : Json}
    (hentries : List.Forall₂ (fun j x => ofJson c j = .ok x) entries xs) (hj : j ∈ entries)
    (h : ∀ x, ofJson c j = .ok x → IsAmong column items x.leaves) :
    IsAmong column items (leavesOf xs) := by
  obtain ⟨x, hx, hread⟩ := exists_mem_of_forall₂ hentries.flip hj
  obtain ⟨op, vs, hvs, hleaf⟩ := h x hread
  exact ⟨op, vs, hvs, leaves_subset_leavesOf hx hleaf⟩

/-- A list of a document is one of the leaves that the document is read as. -/
theorem HasList.isAmong {j : Json} {x : Condition} (h : HasList column items j)
    (hx : ofJson c j = .ok x) : IsAmong column items x.leaves := by
  induction h generalizing x with
  | here hor hand hraw hcolumn hval =>
    cases ofJson_eq_ok.mp hx with
    | any hor' | all _ hor' | raw _ _ hor' => simp [hor, hand, hraw] at hor'
    | compare _ _ _ hcolumn' _ hoperand =>
      cases hcolumn.symm.trans hcolumn'
      rw [hval, operandOfJson_eq_ok] at hoperand
      cases hoperand with
      | list hvs => exact ⟨_, _, hvs, List.mem_singleton_self _⟩
      | scalar hv => cases hv
  | any hor hj _ ih =>
    cases ofJson_eq_ok.mp hx with
    | any hor' hentries =>
      cases hor.symm.trans hor'
      exact isAmong_leavesOf hentries hj fun _ => ih
    | all hor' | raw hor' | compare hor' => simp [hor] at hor'
  | all hor hand hj _ ih =>
    cases ofJson_eq_ok.mp hx with
    | all _ hand' hentries =>
      cases hand.symm.trans hand'
      exact isAmong_leavesOf hentries hj fun _ => ih
    | any hor' => simp [hor] at hor'
    | raw _ hand' | compare _ hand' => simp [hand] at hand'

end Condition

namespace Filter
variable {f : Filter} {t : Target}

/-- A document of a filter has a list in one of its entries. -/
def HasList (column : String) (items : List Json) (j : Json) : Prop :=
  ∃ entries, j = .array entries ∧ ∃ entry ∈ entries, Condition.HasList column items entry

theorem HasList.isAmong {j : Json} (h : HasList column items j) (hf : ofJson c j = .ok f) :
    Condition.IsAmong column items f.leaves := by
  obtain ⟨entries, rfl, entry, hentry, hlist⟩ := h
  obtain ⟨xs, hxs, rfl⟩ := map_eq_ok.mp hf
  obtain ⟨items, hitems, hentries⟩ := Condition.listOfJson_eq_ok.mp hxs
  cases hitems
  exact Condition.isAmong_leavesOf hentries hentry fun _ => hlist.isAmong

/-- A text that reads as a filter holds the lists of the filter. -/
theorem IsReadFrom.holdsList {n : Nat} {sql : String} (h : f.IsReadFrom t c n sql)
    (hlist : Condition.IsAmong column items f.leaves) (hne : items ≠ []) :
    HoldsList column items sql := by
  obtain ⟨ts, rfl, hwritten, -⟩ := h
  obtain ⟨op, vs, hvs, hleaf⟩ := hlist
  obtain ⟨ps, hps, hleafWritten⟩ := exists_mem_of_forall₂ hwritten.flip hleaf
  obtain ⟨before, k, after, htext⟩ := Sql.Lexeme.exists_spell_of_mem_contents hps t.dialect n
  have hholds := Condition.WrittenAs.holdsList hvs hne hleafWritten t.dialect k
  rw [htext]
  exact (hholds.after before).before after

theorem conditions_ne_nil (h : Condition.IsAmong column items f.leaves) : f.conditions ≠ [] := by
  intro hnil
  obtain ⟨op, vs, -, hleaf⟩ := h
  rw [leaves, hnil] at hleaf
  cases hleaf

theorem holdsList_compile {sql : String} {values : List Value}
    (h : f.compile t c = .ok (sql, values)) (hlist : Condition.IsAmong column items f.leaves)
    (hne : items ≠ []) : HoldsList column items sql := by
  obtain ⟨e, he, -, -⟩ := compile_eq_ok.mp h
  obtain ⟨sql', values', hcompile, -, hread⟩ := compile_isReadFrom he t.dialect
  cases hcompile.symm.trans h
  exact (hread (conditions_ne_nil hlist)).holdsList hlist hne

/-- A clause of one filter holds the lists of the filter. -/
theorem holdsList_clausePieces {e : Sql.Expr} {g : Sql.ExprGroup} (he : f.toExpr t.quote c = .ok e)
    (hg : g = Sql.ExprGroup.empty.and e) (hlist : Condition.IsAmong column items f.leaves)
    (hne : items ≠ []) (keyword : String) (n : Nat) :
    HoldsList column items (Sql.Piece.spell t.dialect n (g.clausePieces keyword)) := by
  have hmembers : g.members = [e].flatMap Sql.Expr.conjuncts := by
    rw [hg]
    simp [Sql.ExprGroup.and, Sql.ExprGroup.empty]
  have hjoin : join [f] = f := by simp [join]
  have haccepted : Accepted t.quote c [f] [e] := .cons he .nil
  have hfills := haccepted.fills hmembers
  rw [hjoin] at hfills
  obtain ⟨sql, hclause, hread⟩ :=
    (hfills.isClause t.dialect keyword n).2 (conditions_ne_nil hlist)
  rw [hclause]
  exact (hread.holdsList hlist hne).after keyword

end Filter

/-- The parameter that a clause is given under. -/
def Clause.param : Clause → ParamKey
  | .rowFilter => .rowFilter
  | .groupFilter => .groupFilter

namespace FetchParams
variable {t : Target} {disallowed : List ParamKey} {table : String}
  {members : List (String × Json)} {j : Json} {st : Sql.Statement}

theorem holdsList_compileJson (hgiven : given disallowed members c.param = some j)
    (hlist : Filter.HasList column items j) (hne : items ≠ [])
    (h : compileJson t disallowed table (.object members) = .ok st) :
    HoldsList column items st.sql := by
  obtain ⟨ms, p, s, hms, hread, htaken, rfl⟩ := exists_selection_of_compileJson h
  cases hms
  rw [s.sql_build, htaken.dialect]
  cases c with
  | rowFilter =>
    obtain ⟨f, hf, hp⟩ := mapM_some (hgiven ▸ hread.rowFilter)
    obtain ⟨e, he, hfilter⟩ := htaken.rowFilter f hp
    have hwhere := Filter.holdsList_clausePieces he hfilter (hlist.isAmong hf) hne " WHERE " 0
    exact ((((hwhere.after _).before _).before _).before _).before _
  | groupFilter =>
    obtain ⟨f, hf, hp⟩ := mapM_some (hgiven ▸ hread.groupFilter)
    obtain ⟨e, he, hfilter⟩ := htaken.groupFilter f hp
    have hhaving := Filter.holdsList_clausePieces he hfilter (hlist.isAmong hf) hne " HAVING "
      (Sql.Piece.values (s.filter.clausePieces " WHERE ")).length
    exact ((hhaving.after _).before _).before _

end FetchParams

namespace Criteria
variable {t : Target} {criteria : Criteria} {members : List (String × Json)}

theorem exists_find?_of_readAs {members : List (String × Json)}
    {settings : List (String × Operand)} (h : ReadAs members settings) {j : Json}
    (hj : members.find? (·.1 == column) = some (column, j)) :
    ∃ operand, settings.find? (·.1 == column) = some (column, operand) ∧
      operandOfJson column j = .ok operand := by
  induction h with
  | nil => cases hj
  | @cons m s members settings hm _ ih =>
    obtain ⟨hkey, hoperand⟩ := hm
    by_cases hcolumn : m.1 = column
    · rw [List.find?_cons_of_pos (by simpa using hcolumn)] at hj
      cases hj
      refine ⟨s.2, ?_, hoperand⟩
      rw [List.find?_cons_of_pos (by simpa using hkey)]
      exact congrArg some (Prod.ext hkey rfl)
    · rw [List.find?_cons_of_neg (by simpa using hcolumn)] at hj
      rw [List.find?_cons_of_neg (by simpa [hkey] using hcolumn)]
      exact ih hj

/-- The last list that a document has for a column is one of the criteria. -/
theorem exists_list_of_ofJson (h : ofJson (.object members) = .ok criteria)
    (hlast : members.reverse.find? (·.1 == column) = some (column, .array items)) :
    ∃ vs, AreRead items vs ∧ (column, .list vs) ∈ criteria.entries := by
  obtain ⟨settings, hsettings, rfl⟩ := ofJson_eq_ok h
  -- A later member takes the place of an earlier one, so both sides are searched from the end.
  have hreverse : ReadAs members.reverse settings.reverse := List.rel_reverse hsettings
  obtain ⟨operand, hfind, hoperand⟩ := exists_find?_of_readAs hreverse hlast
  obtain ⟨vs, hvs, rfl⟩ := map_eq_ok.mp hoperand
  have hkept := (keeps_ofSettings settings).operand?_eq column
  rw [hfind, operand?] at hkept
  obtain ⟨⟨key, operand⟩, he, rfl⟩ := Option.map_eq_some_iff.mp hkept
  have hkey : key = column := by simpa using List.find?_some he
  exact ⟨vs, Condition.scalars_eq_ok.mp hvs, hkey ▸ List.mem_of_find?_eq_some he⟩

/-- The atom of a list criterion holds the list. -/
theorem Atom.holdsList {k : Nat} {a : String} (h : Atom t k (column, .list vs) a)
    (hitems : AreRead items vs) (hne : items ≠ []) : HoldsList column items a := by
  cases h with
  | @members _ _ literals _ hliterals =>
    refine ⟨"", literals, "", .isIn, rfl, writesMember_literals hitems hliterals, ?_⟩
    rw [← String.toList_inj]
    simp [Operator.sql]
  | noMembers => exact absurd (List.forall₂_nil_right_iff.mp hitems) hne

theorem Atoms.exists_atom {k : Nat} {entries : List (String × Operand)} {atoms : List String}
    {e : String × Operand} (h : Atoms t k entries atoms) (he : e ∈ entries) :
    ∃ k', ∃ a ∈ atoms, Atom t k' e a := by
  induction h with
  | nil => cases he
  | cons ha _ ih =>
    rcases List.mem_cons.mp he with rfl | he
    · exact ⟨_, _, List.mem_cons_self, ha⟩
    · obtain ⟨k', a, hmem, ha'⟩ := ih he
      exact ⟨k', a, List.mem_cons_of_mem _ hmem, ha'⟩

end Criteria

theorem holdsList_intercalate {atoms : List String} {a : String} (h : HoldsList column items a)
    (ha : a ∈ atoms) (separator : String) :
    HoldsList column items (separator.intercalate atoms) := by
  induction atoms with
  | nil => cases ha
  | cons b atoms ih =>
    cases atoms with
    | nil =>
      rw [String.intercalate_singleton]
      rwa [← List.mem_singleton.mp ha]
    | cons b' atoms =>
      rw [String.intercalate_cons_cons]
      rcases List.mem_cons.mp ha with rfl | ha
      · exact (h.before _).before _
      · exact (ih ha).after _

/-- A statement for criteria holds their lists. -/
theorem Sql.Statement.FilteredBy.holdsList {st : Sql.Statement} {t : Target} {criteria : Criteria}
    {head : String} {written : List Value} (h : st.FilteredBy t criteria head written)
    (hlist : (column, .list vs) ∈ criteria.entries) (hitems : AreRead items vs) (hne : items ≠ []) :
    HoldsList column items st.sql := by
  obtain ⟨atoms, -, hatoms, hsql, -⟩ := h
  obtain ⟨k, a, ha, hatom⟩ := hatoms.exists_atom hlist
  rw [hsql]
  exact (holdsList_intercalate (hatom.holdsList hitems hne) ha _).after _

/-- A call sends a statement that holds a list. -/
def Call.HoldsList (column : String) (items : List Json) : Call → Prop
  | .query st _ => TableAccess.HoldsList column items st.sql
  | .execute st _ => TableAccess.HoldsList column items st.sql
  | .lastKey _ _ => False

theorem Call.FilteredBy.holdsList {call : Call} {t : Target} {criteria : Criteria}
    {table mutation : String} {written : List Value}
    (h : call.FilteredBy t criteria table mutation written)
    (hlist : (column, .list vs) ∈ criteria.entries) (hitems : AreRead items vs) (hne : items ≠ []) :
    call.HoldsList column items := by
  cases call with
  | query st answer => exact Sql.Statement.FilteredBy.holdsList h hlist hitems hne
  | execute st answer => exact Sql.Statement.FilteredBy.holdsList h hlist hitems hne
  | lastKey sequence answer => exact h

/-- A list of integers stands in the statement with each integer as it is below `2 ^ 63`, and from
there on as one that shares its nearest floating-point number: in the text of a filter, in the
selection of a document with the filter, and in all the calls for criteria of a document. -/
theorem list_integers_written {σ : Type} (t : Target) (disallowed : List ParamKey)
    (table : String) (w : Writer σ) (payload : Row) (s : Session σ) (column : String)
    (items : List Json) (hne : items ≠ []) :
    (∀ c j f sql values, Filter.HasList column items j → Filter.ofJson c j = .ok f →
      f.compile t c = .ok (sql, values) → HoldsList column items sql) ∧
    (∀ (c : Clause) members j st, FetchParams.given disallowed members c.param = some j →
      Filter.HasList column items j →
      FetchParams.compileJson t disallowed table (.object members) = .ok st →
      HoldsList column items st.sql) ∧
    ∀ members criteria,
      members.reverse.find? (·.1 == column) = some (column, .array items) →
      Criteria.ofJson (.object members) = .ok criteria →
      (∀ call ∈ (w.recorded.deleteMatching criteria).callsIn s, call.HoldsList column items) ∧
      ∀ call ∈ (w.recorded.updateMatching payload criteria).callsIn s,
        call.HoldsList column items := by
  refine ⟨?_, ?_, ?_⟩
  · intro c j f sql values hlist hf hcompile
    exact Filter.holdsList_compile hcompile (hlist.isAmong hf) hne
  · intro c members j st hgiven hlist h
    exact FetchParams.holdsList_compileJson hgiven hlist hne h
  · intro members criteria hlast hcriteria
    obtain ⟨vs, hvs, hlist⟩ := Criteria.exists_list_of_ofJson hcriteria hlast
    obtain ⟨-, hdeletion⟩ := (w.makes_deleteMatching criteria).callsIn s
    obtain ⟨-, hupdate⟩ := (w.makes_updateMatching payload criteria).callsIn s
    have hentries : criteria.isEmpty = false := by
      rw [Criteria.isEmpty, List.isEmpty_eq_false_iff]
      exact List.ne_nil_of_mem hlist
    constructor
    · intro call hcall
      exact (hdeletion.filteredBy hentries call hcall).holdsList hlist hvs hne
    · intro call hcall
      exact (hupdate.filteredBy hentries call hcall).holdsList hlist hvs hne

/-- A document of a filter with a list. -/
def listDocument (items : List Json) : Json :=
  .array [.object [("col", .string "id"), ("val", .array items)]]

/-- Integers below and above the signed words of 64 bits. -/
def listItems : List Json := [.int 7, .int 9223372036854775809]

def Criteria.listed : Criteria :=
  { entries := [("id", .list [Value.ofInteger 7, Value.ofInteger 9223372036854775809])] }

theorem list_integers_written_users :
    HoldsList "id" listItems "id IN (7, 9223372036854776000)" ∧
      HoldsList "id" listItems "SELECT * FROM users WHERE id IN (7, 9223372036854776000)" ∧
      ((Writer.usersWriter.recorded.deleteMatching Criteria.listed).callsIn ⟨(), []⟩).length = 2 ∧
      ∀ call ∈ (Writer.usersWriter.recorded.deleteMatching Criteria.listed).callsIn ⟨(), []⟩,
        call.HoldsList "id" listItems := by
  have hlist : Filter.HasList "id" listItems (listDocument listItems) :=
    ⟨_, rfl, _, List.mem_singleton_self _, .here rfl rfl rfl rfl rfl⟩
  obtain ⟨hfilters, hdocuments, hwrites⟩ := list_integers_written Dialect.postgres.target [] "users"
    Writer.usersWriter .empty ⟨(), []⟩ "id" listItems (List.cons_ne_nil _ _)
  refine ⟨?_, ?_, by decide +kernel, ?_⟩
  · exact hfilters .rowFilter _
      ⟨[.compare "id" none (.list [Value.ofInteger 7, Value.ofInteger 9223372036854775809])]⟩
      _ [] hlist rfl (by decide +kernel)
  · exact hdocuments .rowFilter [("where", listDocument listItems)] _
      ⟨"SELECT * FROM users WHERE id IN (7, 9223372036854776000)", []⟩ rfl hlist
      (by decide +kernel)
  · exact (hwrites [("id", .array listItems)] Criteria.listed rfl rfl).1

/-- An integer from `2 ^ 63` on is written as another one. -/
theorem list_integers_rounded :
    FetchParams.compileJson Dialect.postgres.target [] "t"
        (.object [("where", listDocument [.int 9223372036854775809])]) =
      .ok ⟨"SELECT * FROM t WHERE id IN (9223372036854776000)", []⟩ ∧
    toString (9223372036854775809 : Int) ≠ "9223372036854776000" := by
  decide +kernel

end TableAccess
