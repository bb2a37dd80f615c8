import TableAccess.Proofs.Pieces
import TableAccess.Sql.Expr

/-!
# The words of a rendered filter

The text of a filter is a row of parentheses, connectives and atoms. `Expr.render_eq` splits
rendering in two: the words do not depend on the dialect or on the values bound before, and the
text follows from the words by numbering their places.
-/
namespace TableAccess.Sql

/-- A word of a rendered filter. The content of a raw text may hold connectives of its own. -/
inductive Lexeme where
  | opening
  | closing
  | conj
  | disj
  | atom (content : List Piece)
  | raw (content : List Piece)

namespace Lexeme

/-- How a word is written. -/
def pieces : Lexeme → List Piece
  | .opening => [.text "("]
  | .closing => [.text ")"]
  | .conj => [.text " AND "]
  | .disj => [.text " OR "]
  | .atom content => content
  | .raw content => content

/-- How words are written one after another. -/
def allPieces (ts : List Lexeme) : List Piece := ts.flatMap pieces

/-- What stands in an atom or a raw text. -/
def content? : Lexeme → Option (List Piece)
  | .atom content => some content
  | .raw content => some content
  | _ => none

/-- The contents of atoms and raw texts from left to right. -/
def contents (ts : List Lexeme) : List (List Piece) := ts.filterMap content?

@[simp] theorem allPieces_append (ts us : List Lexeme) :
    allPieces (ts ++ us) = allPieces ts ++ allPieces us := by
  simp [allPieces]

@[simp] theorem allPieces_cons (t : Lexeme) (ts : List Lexeme) :
    allPieces (t :: ts) = t.pieces ++ allPieces ts := by
  simp [allPieces]

@[simp] theorem allPieces_nil : allPieces [] = [] := rfl

@[simp] theorem contents_append (ts us : List Lexeme) :
    contents (ts ++ us) = contents ts ++ contents us := by
  simp [contents]

@[simp] theorem contents_cons (t : Lexeme) (ts : List Lexeme) :
    contents (t :: ts) = t.content?.toList ++ contents ts := by
  cases t <;> rfl

@[simp] theorem contents_parentheses (ts : List Lexeme) :
    contents (.opening :: ts ++ [.closing]) = contents ts := by
  rw [List.cons_append, contents_cons, contents_append]
  simp [content?, contents]

/-- Words joined by a connective are written joined by the text of the connective. -/
theorem allPieces_intercalate (t : Lexeme) (tss : List (List Lexeme)) :
    allPieces ([t].intercalate tss) = t.pieces.intercalate (tss.map allPieces) := by
  induction tss with
  | nil => rfl
  | cons ts rest ih =>
    cases rest with
    | nil => simp
    | cons us rest =>
      rw [List.intercalate_cons_cons, allPieces_append, allPieces_append, ih]
      simp [List.intercalate_cons_cons]

/-- A word without content adds none when it joins others. -/
theorem contents_intercalate {t : Lexeme} (ht : t.content? = none) (tss : List (List Lexeme)) :
    contents ([t].intercalate tss) = tss.flatMap contents := by
  induction tss with
  | nil => rfl
  | cons ts rest ih =>
    cases rest with
    | nil => simp
    | cons us rest =>
      rw [List.intercalate_cons_cons, contents_append, contents_append, ih]
      simp [ht, contents]

/-- Values stand in atoms and raw texts only. -/
theorem values_allPieces (ts : List Lexeme) :
    Piece.values (allPieces ts) = (contents ts).flatMap Piece.values := by
  induction ts with
  | nil => rfl
  | cons t ts ih =>
    rw [allPieces_cons, Piece.values_append, ih]
    cases t <;> simp [pieces, content?, Piece.values]

end Lexeme

namespace Expr

/-- A raw text with its values at the question marks, as long as there are values. -/
def templatePieces : List Char → List Value → List Piece
  | [], _ => []
  | c :: cs, [] => .text (String.ofList [c]) :: templatePieces cs []
  | c :: cs, v :: vs =>
    if c = '?' then .bound v :: templatePieces cs vs
    else .text (String.ofList [c]) :: templatePieces cs (v :: vs)

/-- Puts the words of a member of a group in parentheses if it needs them. -/
def enclose (e : Expr) (ts : List Lexeme) : List Lexeme :=
  if e.isGrouped then .opening :: ts ++ [.closing] else ts

mutual

/-- The words of an expression. -/
def lexemes : Expr → List Lexeme
  | .all members => [Lexeme.conj].intercalate (memberLexemes members)
  | .any members => [Lexeme.disj].intercalate (memberLexemes members)
  | .compare column op value => [.atom [.text (column ++ " " ++ op ++ " "), .bound value]]
  | .nullCheck column isNull =>
    [.atom [.text (column ++ (if isNull then " IS NULL" else " IS NOT NULL"))]]
  | .inList column literals negated =>
    [.atom [.text (column ++ (if negated then " NOT IN (" else " IN (")
      ++ ", ".intercalate literals ++ ")")]]
  | .template sql params => [.raw (templatePieces sql.toList params)]
  | .always => [.atom [.text "1=1"]]
  | .never => [.atom [.text "1=0"]]

/-- The words of the members of a group, the empty ones left out. -/
def memberLexemes : List Expr → List (List Lexeme)
  | [] => []
  | e :: es =>
    if isEmpty e then memberLexemes es else enclose e (lexemes e) :: memberLexemes es

end

/-- The words of a member of a group. -/
def enclosed (e : Expr) : List Lexeme := enclose e e.lexemes

/-- How an expression is written. -/
def pieces (e : Expr) : List Piece := Lexeme.allPieces e.lexemes

/-- The members that are not empty, each in its words. -/
theorem memberLexemes_eq (es : List Expr) :
    memberLexemes es = (es.filter fun e => !e.isEmpty).map enclosed := by
  induction es with
  | nil => rfl
  | cons e es ih => by_cases he : e.isEmpty <;> simp [memberLexemes, he, ih, enclosed]

/-- A raw text is rendered with its values at the question marks. -/
theorem fillTemplate_eq (d : Dialect) (cs : List Char) (vs : List Value) (ps : ParamList) :
    fillTemplate d cs vs ps =
      ((Piece.spell d ps.size (templatePieces cs vs)).toList,
        ps.append (Piece.values (templatePieces cs vs))) := by
  induction cs generalizing vs ps with
  | nil => simp [fillTemplate, templatePieces, Piece.spell, Piece.values, ParamList.append_nil]
  | cons c cs ih =>
    cases vs with
    | nil => simp [fillTemplate, templatePieces, Piece.spell, Piece.values, ih]
    | cons v vs =>
      by_cases hc : c = '?'
      · simp [fillTemplate, templatePieces, Piece.spell, Piece.values, ih, hc,
          ParamList.bind_eq, ParamList.size_append, ParamList.append_append]
      · simp [fillTemplate, templatePieces, Piece.spell, Piece.values, ih, hc]

/-- With one value for each question mark, the values of a raw text are bound in their order. -/
theorem values_templatePieces {cs : List Char} {vs : List Value} (h : cs.count '?' = vs.length) :
    Piece.values (templatePieces cs vs) = vs := by
  induction cs generalizing vs with
  | nil =>
    have hvs : vs = [] := List.eq_nil_of_length_eq_zero (by simpa using h.symm)
    simp [hvs, templatePieces, Piece.values]
  | cons c cs ih =>
    by_cases hc : c = '?'
    · cases vs with
      | nil => simp [hc] at h
      | cons v vs =>
        have hcs : cs.count '?' = vs.length := by simpa [hc] using h
        simp [templatePieces, hc, Piece.values, ih hcs]
    · have hcs : cs.count '?' = vs.length := by simpa [hc] using h
      cases vs with
      | nil => simp [templatePieces, Piece.values, ih hcs]
      | cons v vs => simp [templatePieces, hc, Piece.values, ih hcs]

/-- With one value for each question mark, no question mark is left in a text. -/
theorem text_templatePieces {cs : List Char} {vs : List Value} (h : cs.count '?' = vs.length)
    {s : String} (hs : .text s ∈ templatePieces cs vs) : '?' ∉ s.toList := by
  induction cs generalizing vs with
  | nil => simp [templatePieces] at hs
  | cons c cs ih =>
    by_cases hc : c = '?'
    · cases vs with
      | nil => simp [hc] at h
      | cons v vs =>
        have hcs : cs.count '?' = vs.length := by simpa [hc] using h
        exact ih hcs (by simpa [templatePieces, hc] using hs)
    · have hcs : cs.count '?' = vs.length := by simpa [hc] using h
      have hcons : templatePieces (c :: cs) vs =
          .text (String.ofList [c]) :: templatePieces cs vs := by
        cases vs <;> simp [templatePieces, hc]
      rw [hcons] at hs
      rcases List.mem_cons.mp hs with hs | hs
      · cases hs
        simpa using Ne.symm hc
      · exact ih hcs hs

/-- Where placeholders are question marks, a raw text is rendered as it stands. -/
theorem spell_templatePieces {d : Dialect} (hd : d ≠ .postgres) (n : Nat) (cs : List Char)
    (vs : List Value) : Piece.spell d n (templatePieces cs vs) = String.ofList cs := by
  have hp : ∀ i, d.placeholder i = String.ofList ['?'] := by
    intro i
    cases d with
    | postgres => exact absurd rfl hd
    | mysql | sqlite | sqlserver => rfl
  induction cs generalizing n vs with
  | nil => simp [templatePieces, Piece.spell]
  | cons c cs ih =>
    have hcons : String.ofList (c :: cs) = String.ofList [c] ++ String.ofList cs := by
      rw [← String.ofList_append]; rfl
    cases vs with
    | nil => rw [templatePieces, Piece.spell, ih, hcons]
    | cons v vs =>
      by_cases hc : c = '?'
      · rw [templatePieces, if_pos hc, Piece.spell, ih, hp, hcons, hc]
      · rw [templatePieces, if_neg hc, Piece.spell, ih, hcons]

theorem spell_enclosed (d : Dialect) (n : Nat) (e : Expr) :
    Piece.spell d n (Lexeme.allPieces e.enclosed) =
      if e.isGrouped then parenthesized (Piece.spell d n e.pieces)
      else Piece.spell d n e.pieces := by
  by_cases he : e.isGrouped
  · simp [enclosed, enclose, he, parenthesized, Lexeme.pieces, Piece.spell, Piece.spell_append,
      pieces, String.append_assoc]
  · simp [enclosed, enclose, he, pieces]

theorem values_enclosed (e : Expr) :
    Piece.values (Lexeme.allPieces e.enclosed) = Piece.values e.pieces := by
  by_cases he : e.isGrouped <;>
    simp [enclosed, enclose, he, pieces, Lexeme.pieces, Piece.values, Piece.values_append]

mutual

/-- Rendering an expression writes its words, with the numbers of the placeholders running on
from the values that are bound already. -/
theorem render_eq (d : Dialect) (e : Expr) (ps : ParamList) :
    e.render d ps = (Piece.spell d ps.size e.pieces, ps.append (Piece.values e.pieces)) := by
  cases e with
  | all members =>
    simp only [render, renderMembers_eq d members ps, pieces, lexemes,
      Lexeme.allPieces_intercalate, Lexeme.pieces, Piece.intercalate_spellEach,
      Piece.values_intercalate]
  | any members =>
    simp only [render, renderMembers_eq d members ps, pieces, lexemes,
      Lexeme.allPieces_intercalate, Lexeme.pieces, Piece.intercalate_spellEach,
      Piece.values_intercalate]
  | compare column op value =>
    simp [render, pieces, lexemes, Lexeme.pieces, Piece.spell, Piece.values, ParamList.bind_eq]
  | nullCheck column isNull =>
    simp [render, pieces, lexemes, Lexeme.pieces, Piece.spell, Piece.values, ParamList.append_nil]
  | inList column literals negated =>
    simp [render, pieces, lexemes, Lexeme.pieces, Piece.spell, Piece.values, ParamList.append_nil]
  | template sql params =>
    simp [render, pieces, lexemes, Lexeme.pieces, fillTemplate_eq]
  | always | never =>
    simp [render, pieces, lexemes, Lexeme.pieces, Piece.spell, Piece.values, ParamList.append_nil]

/-- Rendering the members of a group writes the words of each member that is not empty. -/
theorem renderMembers_eq (d : Dialect) (es : List Expr) (ps : ParamList) :
    renderMembers d es ps =
      (Piece.spellEach d ps.size ((memberLexemes es).map Lexeme.allPieces),
        ps.append (((memberLexemes es).map Lexeme.allPieces).flatMap Piece.values)) := by
  cases es with
  | nil => simp [renderMembers, memberLexemes, Piece.spellEach, ParamList.append_nil]
  | cons e es =>
    by_cases he : e.isEmpty
    · simp only [renderMembers, memberLexemes, he, if_true, renderMembers_eq d es ps]
    · have hspell := spell_enclosed d ps.size e
      have hvalues := values_enclosed e
      simp only [enclosed] at hspell hvalues
      simp only [renderMembers, memberLexemes, he, render_eq d e ps, List.map_cons,
        List.flatMap_cons, Piece.spellEach, hspell, hvalues, Bool.false_eq_true, if_false]
      rw [renderMembers_eq d es]
      simp only [ParamList.size_append, ParamList.append_append]

end

end Expr

end TableAccess.Sql
