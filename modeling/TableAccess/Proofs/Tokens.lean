import TableAccess.Proofs.Statements
import TableAccess.Proofs.Words

/-!
# The tokens of a selection

The text of a selection as a sequence of tokens with blanks between them: what the builder writes
of its own, and the texts that it was given.
-/
namespace TableAccess

namespace Sql

/-- A part of a statement: a text of the builder's own, a number, or a text that was given. -/
inductive Token where
  | own (s : String)
  | number (n : Nat)
  | given (s : String)
  deriving DecidableEq

namespace Token

def text : Token → String
  | .own s => s
  | .number n => toString n
  | .given s => s

/-- The text of tokens, each behind a blank. -/
def spaced : List Token → String
  | [] => ""
  | t :: ts => " " ++ t.text ++ spaced ts

/-- The words of a token, a given text being read as some words. -/
def words (fill : String → List String) : Token → List String
  | .own s => Text.wordsOf s
  | .number n => [toString n]
  | .given s => fill s

/-- The words of tokens, the given texts being read as some words. -/
def expand (fill : String → List String) (ts : List Token) : List String :=
  ts.flatMap (words fill)

@[simp] theorem spaced_append (ts us : List Token) :
    spaced (ts ++ us) = spaced ts ++ spaced us := by
  induction ts with
  | nil => simp [spaced]
  | cons t ts ih => simp [spaced, ih, String.append_assoc]

@[simp] theorem expand_nil (fill : String → List String) : expand fill [] = [] := rfl

@[simp] theorem expand_append (fill : String → List String) (ts us : List Token) :
    expand fill (ts ++ us) = expand fill ts ++ expand fill us := List.flatMap_append

theorem wordsOf_text (t : Token) : Text.wordsOf t.text = t.words Text.wordsOf := by
  cases t with
  | own s | given s => rfl
  | number n => exact Text.wordsOf_toString n

/-- The words of a text that ends with tokens. -/
theorem wordsOf_append_spaced (s : String) (ts : List Token) :
    Text.wordsOf (s ++ spaced ts) = Text.wordsOf s ++ expand Text.wordsOf ts := by
  induction ts generalizing s with
  | nil => simp [spaced, expand]
  | cons t ts ih =>
    rw [spaced, ← String.append_assoc, ← String.append_assoc, ih, Text.wordsOf_append_blank,
      wordsOf_text, List.append_assoc]
    rfl

/-- A token without a number: one of some keywords, or a given text. -/
def IsPlain (keywords : List String) : Token → Prop
  | .own k => k ∈ keywords
  | .number _ => False
  | .given _ => True

theorem IsPlain.mono {ks ks' : List String} (hks : ks ⊆ ks') {t : Token} (h : t.IsPlain ks) :
    t.IsPlain ks' := by
  cases t with
  | own k => exact hks h
  | number n => exact h
  | given s => exact h

/-- Without the given texts, the words of plain tokens are those of the keywords. -/
theorem mem_expand_plain {w : String} {ks : List String} {ts : List Token}
    (hts : ∀ t ∈ ts, t.IsPlain ks) (h : w ∈ expand (fun _ => []) ts) :
    ∃ k ∈ ks, w ∈ Text.wordsOf k := by
  obtain ⟨t, ht, hw⟩ := List.mem_flatMap.mp h
  have hplain := hts t ht
  cases t with
  | own k => exact ⟨k, hplain, hw⟩
  | number n => exact absurd hplain id
  | given s => simp [words] at hw

end Token

end Sql

namespace Dialect
open Sql (Token)

/-- The limit before the columns. -/
def topTokens (d : Dialect) (limit offset : Option Nat) : List Token :=
  match limit with
  | some n =>
    if d.limitsBeforeColumns limit offset then [.own "TOP", .number n] else []
  | none => []

theorem pagingHead_eq (d : Dialect) (limit offset : Option Nat) (columns : String) :
    " " ++ d.pagingHead limit offset ++ columns =
      Token.spaced (d.topTokens limit offset ++ [.given columns]) := by
  unfold pagingHead topTokens
  cases limit with
  | none => simp [Token.spaced, Token.text]
  | some n =>
    by_cases h : d.limitsBeforeColumns (some n) offset
    · rw [← String.toList_inj]
      simp [h, Token.spaced, Token.text]
    · simp [h, Token.spaced, Token.text]

/-- The limit behind the ordering, or what stands for none before an offset. -/
def limitTokens (d : Dialect) (limit offset : Option Nat) : List Token :=
  match limit, offset, d with
  | some n, _, _ => [.own "LIMIT", .number n]
  | none, some _, .sqlite => [.own "LIMIT", .own "-1"]
  | none, some _, .mysql => [.own "LIMIT", .own "18446744073709551615"]
  | _, _, _ => []

def offsetTokens : Option Nat → List Token
  | some m => [.own "OFFSET", .number m]
  | none => []

/-- An ordering by nothing, if there is none. -/
def anyOrder (ordered : Bool) : List Token :=
  if ordered then [] else [.own "ORDER BY", .own "(SELECT NULL)"]

/-- The paging behind the ordering. -/
def tailTokens (d : Dialect) (limit offset : Option Nat) (ordered : Bool) : List Token :=
  match d with
  | .sqlserver =>
    match offset with
    | none => []
    | some m =>
      anyOrder ordered ++ [.own "OFFSET", .number m, .own "ROWS"]
        ++ match limit with
          | some n => [.own "FETCH NEXT", .number n, .own "ROWS ONLY"]
          | none => []
  | d => d.limitTokens limit offset ++ offsetTokens offset

theorem pagingTail_eq (d : Dialect) (limit offset : Option Nat) (ordered : Bool) :
    d.pagingTail limit offset ordered = Token.spaced (d.tailTokens limit offset ordered) := by
  rw [← String.toList_inj]
  cases d <;> cases limit <;> cases offset <;> cases ordered <;>
    simp [pagingTail, tailTokens, anyOrder, noLimit, limitTokens, offsetTokens, Token.spaced,
      Token.text]

end Dialect

namespace Sql

/-- A clause of a filter behind its keyword, with the text that stands behind `n` values. -/
def ExprGroup.tokens (keyword : String) (d : Dialect) (n : Nat) (g : ExprGroup) : List Token :=
  if Expr.allEmpty g.members then []
  else [.own keyword, .given (Piece.spell d n (Expr.all g.members).pieces)]

theorem ExprGroup.spell_clausePieces (keyword : String) (d : Dialect) (n : Nat) (g : ExprGroup) :
    Piece.spell d n (g.clausePieces (" " ++ keyword ++ " ")) =
      Token.spaced (g.tokens keyword d n) := by
  unfold clausePieces tokens
  split_ifs
  · rfl
  · simp [Piece.spell, Token.spaced, Token.text, String.append_assoc]

theorem ExprGroup.isPlain_tokens (keyword : String) (d : Dialect) (n : Nat) (g : ExprGroup) :
    ∀ t ∈ g.tokens keyword d n, t.IsPlain [keyword] := by
  unfold tokens
  split_ifs
  · simp
  · simp [Token.IsPlain]

namespace Select

/-- A list of terms behind its keyword. -/
def termTokens (keyword : String) (terms : List String) : List Token :=
  if terms.isEmpty then [] else [.own keyword, .given (", ".intercalate terms)]

theorem termClause_eq (keyword : String) (terms : List String) :
    termClause (" " ++ keyword ++ " ") terms = Token.spaced (termTokens keyword terms) := by
  unfold termClause termTokens
  split_ifs
  · rfl
  · simp [Token.spaced, Token.text, String.append_assoc]

theorem isPlain_termTokens (keyword : String) (terms : List String) :
    ∀ t ∈ termTokens keyword terms, t.IsPlain [keyword] := by
  unfold termTokens
  split_ifs
  · simp
  · simp [Token.IsPlain]

def headTokens (s : Select) : List Token := if s.isDistinct then [.own "DISTINCT"] else []

/-- The selection from its columns to its groups. -/
def rowTokens (s : Select) : List Token :=
  [.given (", ".intercalate s.columns)] ++ [.own "FROM", .given s.source]
    ++ s.filter.tokens "WHERE" s.dialect 0 ++ termTokens "GROUP BY" s.groups
    ++ s.groupFilter.tokens "HAVING" s.dialect (Piece.values s.rowsPieces).length

theorem isPlain_headTokens (s : Select) : ∀ t ∈ s.headTokens, t.IsPlain ["DISTINCT"] := by
  unfold headTokens
  split_ifs
  · simp [Token.IsPlain]
  · simp

theorem isPlain_rowTokens (s : Select) :
    ∀ t ∈ s.rowTokens, t.IsPlain ["FROM", "WHERE", "GROUP BY", "HAVING"] := by
  intro t ht
  simp only [rowTokens, List.mem_append] at ht
  rcases ht with (((hcols | hfrom) | hwhere) | hgroup) | hhaving
  · simp_all [Token.IsPlain]
  · rcases List.mem_pair.mp hfrom with rfl | rfl <;> simp [Token.IsPlain]
  · exact (s.filter.isPlain_tokens _ _ _ t hwhere).mono (by simp)
  · exact (isPlain_termTokens _ _ t hgroup).mono (by simp)
  · exact (s.groupFilter.isPlain_tokens _ _ _ t hhaving).mono (by simp)

theorem isPlain_bodyTokens (s : Select) :
    ∀ t ∈ s.rowTokens ++ termTokens "ORDER BY" s.orders,
      t.IsPlain ["FROM", "WHERE", "GROUP BY", "HAVING", "ORDER BY"] := by
  intro t ht
  rcases List.mem_append.mp ht with hrow | horder
  · exact (s.isPlain_rowTokens t hrow).mono (by simp)
  · exact (isPlain_termTokens _ _ t horder).mono (by simp)

/-- The tokens of a selection behind its first word. -/
def tokens (s : Select) : List Token :=
  s.headTokens ++ s.dialect.topTokens s.limit? s.offset? ++ s.rowTokens
    ++ termTokens "ORDER BY" s.orders ++ s.dialect.tailTokens s.limit? s.offset? (!s.orders.isEmpty)

/-- The text of a selection is that of its tokens. -/
theorem build_sql_eq (s : Select) : s.build.sql = "SELECT" ++ Token.spaced s.tokens := by
  have hhead : "SELECT " ++ s.projection = "SELECT" ++
      Token.spaced (s.headTokens ++ s.dialect.topTokens s.limit? s.offset?
        ++ [.given (", ".intercalate s.columns)]) := by
    rw [List.append_assoc, Token.spaced_append, ← Dialect.pagingHead_eq, projection, headTokens,
      ← String.toList_inj]
    cases s.isDistinct <;> simp [Token.spaced, Token.text]
  have hfrom : " FROM " ++ s.source = Token.spaced [.own "FROM", .given s.source] := by
    rw [← String.toList_inj]
    simp [Token.spaced, Token.text]
  have hspell : s.build.sql = "SELECT " ++ s.projection ++ (" FROM " ++ s.source)
      ++ Piece.spell s.dialect 0 (s.filter.clausePieces " WHERE ")
      ++ termClause " GROUP BY " s.groups
      ++ Piece.spell s.dialect (Piece.values s.rowsPieces).length
        (s.groupFilter.clausePieces " HAVING ")
      ++ termClause " ORDER BY " s.orders
      ++ s.dialect.pagingTail s.limit? s.offset? (!s.orders.isEmpty) := by
    rw [build_eq]
    simp [Statement.ofPieces, pieces, rowsPieces, Piece.spell, Piece.spell_append, Piece.values,
      String.append_assoc]
  have hkeywords : " WHERE " = " " ++ "WHERE" ++ " " ∧ " GROUP BY " = " " ++ "GROUP BY" ++ " " ∧
      " HAVING " = " " ++ "HAVING" ++ " " ∧ " ORDER BY " = " " ++ "ORDER BY" ++ " " := by
    decide
  obtain ⟨hw, hg, hh, ho⟩ := hkeywords
  rw [hspell, hw, hg, hh, ho, hhead, hfrom, ExprGroup.spell_clausePieces,
    ExprGroup.spell_clausePieces, termClause_eq, termClause_eq, Dialect.pagingTail_eq]
  simp only [tokens, rowTokens, Token.spaced_append, String.append_assoc]

end Select

end Sql

end TableAccess
