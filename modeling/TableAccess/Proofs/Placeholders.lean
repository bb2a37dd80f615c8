import TableAccess.Proofs.Clauses

/-!
# Placeholders and their values

The places of a statement, counted from the left, have the numbers and the values that the
statement binds. Places stand only where a value is written and in the leaves of the filters, so
the values are those of the written columns, then of the WHERE leaves, then of the HAVING leaves.
-/
namespace TableAccess

namespace Sql

/-- Whether a piece is the place of a value. -/
def Piece.isPlace : Piece → Bool
  | .text _ => false
  | .bound _ => true

theorem Piece.length_values (ps : List Piece) : (values ps).length = ps.countP isPlace := by
  induction ps with
  | nil => rfl
  | cons p ps ih => cases p <;> simp [values, List.countP_cons, isPlace, ih]

/-- How the place with a number is written. -/
def mark (d : Dialect) (k : Nat) : String := if d = .postgres then "$" ++ toString k else "?"

theorem placeholder_eq_mark (d : Dialect) (k : Nat) : d.placeholder k = mark d k := by
  cases d <;> rfl

/-- A statement says what the pieces say, has one value for each place, and a place behind `k`
others is marked with the next number and bound to the value at index `k`. -/
structure Statement.LinesUp (st : Statement) (d : Dialect) (ps : List Piece) : Prop where
  sql_eq : st.sql = Piece.spell d 0 ps
  length_eq : st.params.length = ps.countP Piece.isPlace
  place : ∀ qs v rs, ps = qs ++ .bound v :: rs →
    let k := qs.countP Piece.isPlace
    st.params[k]? = some v ∧
      st.sql = Piece.spell d 0 qs ++ mark d (k + 1) ++ Piece.spell d (k + 1) rs

theorem linesUp_ofPieces (d : Dialect) (ps : List Piece) :
    (Statement.ofPieces d ps).LinesUp d ps := by
  refine ⟨rfl, Piece.length_values ps, ?_⟩
  rintro qs v rs rfl
  have hk := Piece.length_values qs
  constructor
  · simp [Statement.ofPieces, Piece.values_append, Piece.values, ← hk]
  · simp [Statement.ofPieces, Piece.spell_append, Piece.spell, placeholder_eq_mark, ← hk,
      String.append_assoc]

end Sql

namespace Filter

/-- Connectives around the leaves of a filter, each leaf in its place. -/
def IsLaidOut (quote : String → String) (c : Clause) (f : Filter) (ps : List Sql.Piece) : Prop :=
  ∃ ts, ps = Sql.Lexeme.allPieces ts ∧
    List.Forall₂ (Condition.WrittenAs quote c) f.leaves (Sql.Lexeme.contents ts)

/-- The clause of a filter behind its keyword, nothing for an empty filter. -/
def IsClauseOf (quote : String → String) (c : Clause) (keyword : String) (f : Filter)
    (ps : List Sql.Piece) : Prop :=
  (f.conditions = [] → ps = []) ∧
    (f.conditions ≠ [] → ∃ qs, ps = .text keyword :: qs ∧ f.IsLaidOut quote c qs)

variable {quote : String → String} {c : Clause} {f : Filter}

theorem Fills.isClauseOf {g : Sql.ExprGroup} (h : Fills quote c f g) (keyword : String) :
    f.IsClauseOf quote c keyword (g.clausePieces keyword) := by
  constructor
  · intro hf
    exact h.clausePieces_nil hf keyword
  · intro hf
    exact ⟨_, h.clausePieces_cons hf keyword, _, rfl, h.writtenAs⟩

/-- A filter is written with the same pieces wherever it starts, its values behind those that are
bound already. -/
theorem compileInto_linesUp (d : Dialect) {e : Sql.Expr} (h : f.toExpr quote c = .ok e) :
    ∃ ps, f.IsLaidOut quote c ps ∧
      (∃ st : Sql.Statement, f.compile ⟨d, quote⟩ c = .ok (st.sql, st.params) ∧ st.LinesUp d ps ∧
        st.params = f.bound) ∧
      ∀ p, f.compileInto ⟨d, quote⟩ c p =
        .ok (Sql.Piece.spell d p.size ps, ⟨p.values ++ f.bound⟩) := by
  have hvalues := values_of_toExpr h
  obtain ⟨es, hes, rfl⟩ := toExpr_eq_ok.mp h
  refine ⟨(Sql.Expr.all es).pieces, ⟨_, rfl, contents_lexemes hes⟩,
    ⟨_, compile_eq h d, Sql.linesUp_ofPieces d _, hvalues⟩, ?_⟩
  intro p
  rw [compileInto_eq h, hvalues]
  rfl

end Filter

namespace Sql

/-- The WHERE values of a selection are bound before the HAVING values, and its count binds the
WHERE values alone. -/
def Select.IsAligned (quote : String → String) (c c' : Clause) (fs gs : List Filter)
    (s : Select) : Prop :=
  ∃ ws hs, (Filter.join fs).IsClauseOf quote c " WHERE " ws ∧
    (Filter.join gs).IsClauseOf quote c' " HAVING " hs ∧
    s.build.LinesUp s.dialect
      (.text ("SELECT " ++ s.projection) :: .text (" FROM " ++ s.source) :: ws
        ++ .text (termClause " GROUP BY " s.groups) :: hs
        ++ [.text (termClause " ORDER BY " s.orders
          ++ s.dialect.pagingTail s.limit? s.offset? (!s.orders.isEmpty))]) ∧
    s.build.params = fs.flatMap Filter.bound ++ gs.flatMap Filter.bound ∧
    ∀ label, (s.count label).LinesUp s.dialect
        (.text ("SELECT COUNT(*) AS " ++ label) :: .text (" FROM " ++ s.source) :: ws) ∧
      (s.count label).params = fs.flatMap Filter.bound

/-- An insertion has a place for each column in order, and there is none without columns. -/
def Insert.IsAligned (es : List (String × Value)) (i : Insert) : Prop :=
  (es = [] → ∃ e, i.build = .error e) ∧
    (es ≠ [] → ∃ st, i.build = .ok st ∧
      st.LinesUp i.dialect
        (.text ("INSERT INTO " ++ i.table ++ " (" ++ ", ".intercalate (es.map (·.1))
            ++ ") VALUES (")
          :: [.text ", "].intercalate (es.map fun e => [.bound e.2]) ++ [.text ")"]) ∧
      st.params = es.map (·.2))

/-- An update binds what is set, column by column, and then the WHERE values. -/
def Update.IsAligned (quote : String → String) (c : Clause) (es : List (String × Value))
    (fs : List Filter) (u : Update) : Prop :=
  (es = [] → ∃ e, u.build = .error e) ∧
    (es ≠ [] → ∃ st ws, u.build = .ok st ∧ (Filter.join fs).IsClauseOf quote c " WHERE " ws ∧
      st.LinesUp u.dialect
        (.text ("UPDATE " ++ u.table ++ " SET ")
          :: [.text ", "].intercalate (es.map fun e => [.text (e.1 ++ " = "), .bound e.2])
          ++ ws) ∧
      st.params = es.map (·.2) ++ fs.flatMap Filter.bound)

/-- A deletion binds the WHERE values. -/
def Delete.IsAligned (quote : String → String) (c : Clause) (fs : List Filter) (s : Delete) :
    Prop :=
  ∃ ws, (Filter.join fs).IsClauseOf quote c " WHERE " ws ∧
    s.build.LinesUp s.dialect (.text ("DELETE FROM " ++ s.table) :: ws) ∧
    s.build.params = fs.flatMap Filter.bound

variable {quote : String → String} {c c' : Clause} {fs gs : List Filter} {table : String}

theorem Select.isAligned_ofSteps {steps : List Step}
    (hfs : Filter.Accepted quote c fs (steps.filterMap where?))
    (hgs : Filter.Accepted quote c' gs (steps.filterMap having?)) :
    (ofSteps table steps).IsAligned quote c c' fs gs := by
  have hw := hfs.fills (members_filter table steps)
  have hh := hgs.fills (members_groupFilter table steps)
  have hwhere := hfs.values_clausePieces (members_filter table steps) " WHERE "
  have hhaving := hgs.values_clausePieces (members_groupFilter table steps) " HAVING "
  refine ⟨_, _, hw.isClauseOf " WHERE ", hh.isClauseOf " HAVING ", ?_, ?_, fun label => ⟨?_, ?_⟩⟩
  · rw [build_eq]
    exact linesUp_ofPieces _ (pieces _)
  · simp [build_eq, Statement.ofPieces, pieces, rowsPieces, Piece.values, Piece.values_append,
      hwhere, hhaving]
  · rw [count_eq]
    exact linesUp_ofPieces _ (countPieces _ label)
  · simp [count_eq, Statement.ofPieces, countPieces, rowsPieces, Piece.values, hwhere]

theorem Insert.isAligned_ofSteps (table : String) (steps : List Step) :
    (ofSteps table steps).IsAligned (steps.flatMap written) := by
  rw [← entries_ofSteps table steps]
  constructor
  · intro h
    exact ⟨_, by rw [build, h]; rfl⟩
  · intro h
    refine ⟨_, build_eq _ h, linesUp_ofPieces _ (pieces _), ?_⟩
    simp [Statement.ofPieces, pieces, Piece.values, Piece.values_append, Piece.values_intercalate,
      values_places]

theorem Update.isAligned_ofSteps {steps : List Step}
    (hfs : Filter.Accepted quote c fs (steps.filterMap where?)) :
    (ofSteps table steps).IsAligned quote c (steps.flatMap written) fs := by
  have hw := hfs.fills (members_filter table steps)
  have hwhere := hfs.values_clausePieces (members_filter table steps) " WHERE "
  rw [← entries_ofSteps table steps]
  constructor
  · intro h
    exact ⟨_, by rw [build, h]; rfl⟩
  · intro h
    refine ⟨_, _, build_eq _ h, hw.isClauseOf " WHERE ", linesUp_ofPieces _ (pieces _), ?_⟩
    simp [Statement.ofPieces, pieces, Piece.values_append, values_setPieces, hwhere]

theorem Delete.isAligned_ofSteps {steps : List Step}
    (hfs : Filter.Accepted quote c fs (steps.filterMap where?)) :
    (ofSteps table steps).IsAligned quote c fs := by
  have hw := hfs.fills (members_filter table steps)
  have hwhere := hfs.values_clausePieces (members_filter table steps) " WHERE "
  refine ⟨_, hw.isClauseOf " WHERE ", ?_, ?_⟩
  · rw [build_eq]
    exact linesUp_ofPieces _ (pieces _)
  · simp [build_eq, Statement.ofPieces, pieces, Piece.values, hwhere]

end Sql

/-- Between the values of a raw text stands what the caller wrote between the question marks. -/
theorem Condition.WrittenAs.raw {quote : String → String} {c : Clause} {sql : String}
    {params : List Value} {ps : List Sql.Piece} (h : WrittenAs quote c (.raw sql params) ps) :
    Sql.Piece.values ps = params ∧ (∀ s, .text s ∈ ps → '?' ∉ s.toList) ∧
      ∀ d n, d ≠ .postgres → Sql.Piece.spell d n ps = sql := by
  obtain ⟨-, e, he, rfl⟩ := h
  obtain ⟨-, hcount, rfl⟩ := lowersTo_raw.mp he
  have hpieces : (Sql.Expr.template sql params).pieces =
      Sql.Expr.templatePieces sql.toList params := by
    simp [Sql.Expr.pieces, Sql.Expr.lexemes, Sql.Lexeme.pieces]
  rw [hpieces]
  refine ⟨Sql.Expr.values_templatePieces hcount, fun s hs => Sql.Expr.text_templatePieces hcount hs,
    fun d n hd => ?_⟩
  rw [Sql.Expr.spell_templatePieces hd, String.ofList_toList]

/-- Placeholders and bound values line up in every fragment and in every statement, each value at
the place where it is written. -/
theorem placeholders_line_up (quote : String → String) :
    (∀ (d : Dialect) (c : Clause) (f : Filter) (e : Sql.Expr), f.toExpr quote c = .ok e →
      ∃ ps, f.IsLaidOut quote c ps ∧
        (∃ st : Sql.Statement, f.compile ⟨d, quote⟩ c = .ok (st.sql, st.params) ∧
          st.LinesUp d ps ∧ st.params = f.bound) ∧
        ∀ p, f.compileInto ⟨d, quote⟩ c p =
          .ok (Sql.Piece.spell d p.size ps, ⟨p.values ++ f.bound⟩)) ∧
    (∀ (c : Clause) (x : Condition) (ps : List Sql.Piece), Condition.WrittenAs quote c x ps →
      Sql.Piece.values ps = x.bound ∧
        ∀ sql params, x = .raw sql params → (∀ s, .text s ∈ ps → '?' ∉ s.toList) ∧
          ∀ d n, d ≠ .postgres → Sql.Piece.spell d n ps = sql) ∧
    (∀ (table : String) (steps : List Sql.Select.Step) (c c' : Clause) (fs gs : List Filter),
      Filter.Accepted quote c fs (steps.filterMap Sql.Select.where?) →
      Filter.Accepted quote c' gs (steps.filterMap Sql.Select.having?) →
      (Sql.Select.ofSteps table steps).IsAligned quote c c' fs gs) ∧
    (∀ (table : String) (steps : List Sql.Insert.Step),
      (Sql.Insert.ofSteps table steps).IsAligned (steps.flatMap Sql.Insert.written)) ∧
    (∀ (table : String) (steps : List Sql.Update.Step) (c : Clause) (fs : List Filter),
      Filter.Accepted quote c fs (steps.filterMap Sql.Update.where?) →
      (Sql.Update.ofSteps table steps).IsAligned quote c (steps.flatMap Sql.Update.written) fs) ∧
    (∀ (table : String) (steps : List Sql.Delete.Step) (c : Clause) (fs : List Filter),
      Filter.Accepted quote c fs (steps.filterMap Sql.Delete.where?) →
      (Sql.Delete.ofSteps table steps).IsAligned quote c fs) := by
  refine ⟨?_, ?_, ?_, ?_, ?_, ?_⟩
  · intro d c f e h
    exact Filter.compileInto_linesUp d h
  · intro c x ps h
    refine ⟨h.values, ?_⟩
    rintro sql params rfl
    exact h.raw.2
  · intro table steps c c' fs gs hfs hgs
    exact Sql.Select.isAligned_ofSteps hfs hgs
  · exact Sql.Insert.isAligned_ofSteps
  · intro table steps c fs hfs
    exact Sql.Update.isAligned_ofSteps hfs
  · intro table steps c fs hfs
    exact Sql.Delete.isAligned_ofSteps hfs

theorem placeholders_line_up_nested :
    (∃ ps, Filter.nested.IsLaidOut id .groupFilter ps ∧
      Filter.nested.compileInto ⟨.postgres, id⟩ .groupFilter ⟨[.text "x", .null]⟩ =
        .ok (Sql.Piece.spell .postgres 2 ps,
          ⟨[.text "x", .null, .bool true, .int 18, .int 3, .int 9]⟩)) ∧
    (∃ ps, Condition.WrittenAs id .rowFilter (.raw "len(name) = ?" [.int 3]) ps ∧
      Sql.Piece.values ps = [.int 3] ∧ Sql.Piece.spell .mysql 7 ps = "len(name) = ?") ∧
    (Sql.Select.ofSteps "users" [.andHaving Filter.nestedExpr, .limit 5,
      .andWhere Filter.nestedExpr]).IsAligned id .rowFilter .groupFilter [Filter.nested]
        [Filter.nested] ∧
    (Sql.Update.ofSteps "users" [.andWhere Filter.nestedExpr, .set "name" (.text "x"),
      .dialect .postgres]).IsAligned id .rowFilter [("name", .text "x")] [Filter.nested] ∧
    (Sql.Delete.ofSteps "users" [.andWhere Filter.nestedExpr]).IsAligned id .rowFilter
      [Filter.nested] := by
  obtain ⟨hfragment, hleaf, hselect, -, hupdate, hdelete⟩ := placeholders_line_up id
  have haccepted : ∀ c, Filter.Accepted id c [Filter.nested] [Filter.nestedExpr] := fun c =>
    .cons (Filter.toExpr_nested c) .nil
  refine ⟨?_, ?_, ?_, ?_, ?_⟩
  · obtain ⟨ps, hps, -, hinto⟩ := hfragment .postgres .groupFilter _ _ (Filter.toExpr_nested _)
    exact ⟨ps, hps, hinto ⟨[.text "x", .null]⟩⟩
  · have hraw : Condition.WrittenAs id .rowFilter (.raw "len(name) = ?" [.int 3])
        (Sql.Expr.template "len(name) = ?" [.int 3]).pieces := ⟨rfl, _, rfl, rfl⟩
    obtain ⟨hvalues, htext⟩ := hleaf _ _ _ hraw
    exact ⟨_, hraw, hvalues, (htext _ _ rfl).2 .mysql 7 (by decide)⟩
  · exact hselect "users" [.andHaving Filter.nestedExpr, .limit 5, .andWhere Filter.nestedExpr]
      .rowFilter .groupFilter _ _ (haccepted .rowFilter) (haccepted .groupFilter)
  · exact hupdate "users" [.andWhere Filter.nestedExpr, .set "name" (.text "x"),
      .dialect .postgres] .rowFilter _ (haccepted .rowFilter)
  · exact hdelete "users" [.andWhere Filter.nestedExpr] .rowFilter _ (haccepted .rowFilter)

end TableAccess
