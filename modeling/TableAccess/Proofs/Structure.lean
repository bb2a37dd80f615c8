import TableAccess.Proofs.Clauses

/-!
# Filters keep their structure in text

The text of an accepted filter, read by the usual rules, holds for exactly the rows that the filter
is about, and so does the text of a WHERE or HAVING clause, where nested conjunctions have lost
their parentheses.
-/
namespace TableAccess

namespace Filter

/-- A text reads as a filter: it splits into words whose atoms and raw texts are the leaves of the
filter, each once and in order, and whatever the truth of the leaves, the words have the truth of
the filter. -/
def IsReadFrom (t : Target) (c : Clause) (f : Filter) (n : Nat) (sql : String) : Prop :=
  ∃ ts, Sql.Piece.spell t.dialect n (Sql.Lexeme.allPieces ts) = sql ∧
    List.Forall₂ (Condition.WrittenAs t.quote c) f.leaves (Sql.Lexeme.contents ts) ∧
    ∀ v, Sql.Lexeme.read v ts = some (f.truth v)

/-- A clause reads as a filter behind its keyword, and there is none for an empty filter. -/
def IsClause (t : Target) (c : Clause) (keyword : String) (f : Filter) (n : Nat)
    (clause : String) : Prop :=
  (f.conditions = [] → clause = "") ∧
    (f.conditions ≠ [] → ∃ sql, clause = keyword ++ sql ∧ f.IsReadFrom t c n sql)

variable {quote : String → String} {c : Clause} {f : Filter}

theorem isReadFrom_of_lowersTo {es : List Sql.Expr}
    (h : List.Forall₂ (Condition.LowersTo quote c) f.conditions es) (hf : f.conditions ≠ [])
    (d : Dialect) (n : Nat) :
    f.IsReadFrom ⟨d, quote⟩ c n (Sql.Piece.spell d n (Sql.Expr.all es).pieces) :=
  ⟨_, rfl, contents_lexemes h, read_lexemes h hf⟩

theorem Fills.isReadFrom {g : Sql.ExprGroup} (h : Fills quote c f g) (hf : f.conditions ≠ [])
    (d : Dialect) (n : Nat) :
    f.IsReadFrom ⟨d, quote⟩ c n (Sql.Piece.spell d n (Sql.Expr.all g.members).pieces) := by
  refine ⟨_, rfl, h.writtenAs, fun v => ?_⟩
  rw [read_lexemes h.lowersTo (mt h.eq_nil_iff.mp hf), truth_spliced]

theorem Fills.isClause {g : Sql.ExprGroup} (h : Fills quote c f g) (d : Dialect)
    (keyword : String) (n : Nat) :
    f.IsClause ⟨d, quote⟩ c keyword n (Sql.Piece.spell d n (g.clausePieces keyword)) := by
  constructor
  · intro hf
    rw [h.clausePieces_nil hf keyword]
    rfl
  · intro hf
    rw [h.clausePieces_cons hf keyword]
    exact ⟨_, rfl, h.isReadFrom hf d n⟩

/-- A compiled filter reads as the filter. -/
theorem compile_isReadFrom {e : Sql.Expr} (h : f.toExpr quote c = .ok e) (d : Dialect) :
    ∃ sql values, f.compile ⟨d, quote⟩ c = .ok (sql, values) ∧
      (f.conditions = [] → sql = "") ∧
      (f.conditions ≠ [] → f.IsReadFrom ⟨d, quote⟩ c 0 sql) := by
  obtain ⟨es, hes, rfl⟩ := toExpr_eq_ok.mp h
  refine ⟨_, _, compile_eq h d, ?_, ?_⟩
  · intro hf
    rw [hf] at hes
    cases hes
    rfl
  · intro hf
    exact isReadFrom_of_lowersTo hes hf d 0

end Filter

namespace Sql.Select

/-- A selection with its two filters set apart. -/
theorem sql_build (s : Select) :
    s.build.sql = "SELECT " ++ s.projection ++ " FROM " ++ s.source
      ++ Piece.spell s.dialect 0 (s.filter.clausePieces " WHERE ")
      ++ termClause " GROUP BY " s.groups
      ++ Piece.spell s.dialect (Piece.values (s.filter.clausePieces " WHERE ")).length
          (s.groupFilter.clausePieces " HAVING ")
      ++ termClause " ORDER BY " s.orders
      ++ s.dialect.pagingTail s.limit? s.offset? (!s.orders.isEmpty) := by
  simp only [build_eq, Statement.ofPieces, pieces, rowsPieces, List.cons_append, Piece.spell,
    Piece.spell_append, Piece.values, Nat.zero_add, String.append_assoc, String.append_empty]

end Sql.Select

/-- Boolean structure survives in text: a compiled filter reads as the filter, and the WHERE and
HAVING clauses of a selection read as all filters that were given for them, whatever else was
asked of the selection and in whatever order. -/
theorem filter_structure_kept (quote : String → String) :
    (∀ (d : Dialect) (c : Clause) (f : Filter) (e : Sql.Expr), f.toExpr quote c = .ok e →
      ∃ sql values, f.compile ⟨d, quote⟩ c = .ok (sql, values) ∧
        (f.conditions = [] → sql = "") ∧
        (f.conditions ≠ [] → f.IsReadFrom ⟨d, quote⟩ c 0 sql)) ∧
    (∀ (table : String) (steps : List Sql.Select.Step) (c c' : Clause) (fs gs : List Filter),
      Filter.Accepted quote c fs (steps.filterMap Sql.Select.where?) →
      Filter.Accepted quote c' gs (steps.filterMap Sql.Select.having?) →
      let s := Sql.Select.ofSteps table steps
      ∃ where' having',
        s.build.sql = "SELECT " ++ s.projection ++ " FROM " ++ s.source ++ where'
          ++ Sql.Select.termClause " GROUP BY " s.groups ++ having'
          ++ Sql.Select.termClause " ORDER BY " s.orders
          ++ s.dialect.pagingTail s.limit? s.offset? (!s.orders.isEmpty) ∧
        (Filter.join fs).IsClause ⟨s.dialect, quote⟩ c " WHERE " 0 where' ∧
        (Filter.join gs).IsClause ⟨s.dialect, quote⟩ c' " HAVING " (Filter.join fs).bound.length
          having') := by
  constructor
  · intro d c f e h
    exact Filter.compile_isReadFrom h d
  · intro table steps c c' fs gs hfs hgs s
    have hw := hfs.fills (Sql.Select.members_filter table steps)
    have hh := hgs.fills (Sql.Select.members_groupFilter table steps)
    refine ⟨_, _, s.sql_build, hw.isClause s.dialect " WHERE " 0, ?_⟩
    rw [hw.values_clausePieces]
    exact hh.isClause s.dialect " HAVING " _

theorem filter_structure_kept_nested :
    Filter.nested.IsReadFrom ⟨.postgres, id⟩ .rowFilter 0
      ("active = $1 AND (age >= $2 OR (owner IS NULL AND (len(name) = $3)))"
        ++ " AND (kind IN (1, NULL) AND (kind < $4))") ∧
    (∃ where' having',
      (Sql.Select.ofSteps "users" [.andHaving Filter.nestedExpr, .groupBy ["owner"],
        .andWhere Filter.nestedExpr, .dialect .postgres, .andWhere Filter.nestedExpr]).build.sql =
          "SELECT * FROM users" ++ where' ++ " GROUP BY owner" ++ having' ∧
      (Filter.join [Filter.nested, Filter.nested]).IsClause ⟨.postgres, id⟩ .rowFilter " WHERE " 0
        where' ∧
      (Filter.join [Filter.nested]).IsClause ⟨.postgres, id⟩ .groupFilter " HAVING " 8
        having') := by
  obtain ⟨hcompile, hselect⟩ := filter_structure_kept id
  constructor
  · obtain ⟨sql, values, h, -, hread⟩ := hcompile .postgres .rowFilter Filter.nested
      Filter.nestedExpr rfl
    cases h
    exact hread (by simp [Filter.nested])
  · obtain ⟨where', having', hsql, hwhere, hhaving⟩ := hselect "users"
      [.andHaving Filter.nestedExpr, .groupBy ["owner"], .andWhere Filter.nestedExpr,
        .dialect .postgres, .andWhere Filter.nestedExpr]
      .rowFilter .groupFilter [Filter.nested, Filter.nested] [Filter.nested]
      (.cons rfl (.cons rfl .nil)) (.cons rfl .nil)
    refine ⟨where', having', ?_, hwhere, hhaving⟩
    rw [hsql]
    change "SELECT * FROM users" ++ where' ++ " GROUP BY owner" ++ having' ++ "" ++ "" = _
    rw [String.append_empty, String.append_empty]

end TableAccess
