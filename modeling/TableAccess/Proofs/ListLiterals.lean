import TableAccess.Proofs.Clauses
import TableAccess.Proofs.Numerals

/-!
# Lists read back from a statement

The members of a list stand in the text of a statement, so the text must say what they were. The
reader knows the literals of a dialect and not how they were written. A quoted text ends at its own
last quote, whatever characters it has and whatever follows.
-/
namespace TableAccess.Sql

inductive Literal where
  | null
  | integer (i : Int)
  | text (s : String)
  deriving DecidableEq

namespace Literal

/-- What a value says in a list: truth values are integers there. The digits of a floating-point
number are no integer, and are not read. -/
def ofValue? : Value → Option Literal
  | .null => some .null
  | .bool b => some (.integer (if b then 1 else 0))
  | .int i => some (.integer i.toInt)
  | .float _ => none
  | .text s => some (.text s)

/-- Reads a text behind its opening quote. A doubled quote is a quote, and where the dialect has
escapes, a backslash stands before a character as it is. -/
def readText (d : Dialect) : List Char → Option (List Char × List Char)
  | [] => none
  | '\'' :: '\'' :: cs => (readText d cs).map fun r => ('\'' :: r.1, r.2)
  | '\'' :: cs => some ([], cs)
  | '\\' :: c :: cs =>
    if d = .mysql then (readText d cs).map fun r => (c :: r.1, r.2)
    else (readText d (c :: cs)).map fun r => ('\\' :: r.1, r.2)
  | c :: cs => (readText d cs).map fun r => (c :: r.1, r.2)

def readNatural (cs : List Char) : Option (Nat × List Char) :=
  (Text.readDigits? (cs.takeWhile Char.isDigit)).map fun n => (n, cs.dropWhile Char.isDigit)

def read (d : Dialect) : List Char → Option (Literal × List Char)
  | '\'' :: cs => (readText d cs).map fun r => (.text (String.ofList r.1), r.2)
  | '-' :: cs => (readNatural cs).map fun r => (.integer (-r.1), r.2)
  | 'N' :: 'U' :: 'L' :: 'L' :: cs => some (.null, cs)
  | cs => (readNatural cs).map fun r => (.integer r.1, r.2)

def afterSeparator? : List Char → Option (List Char)
  | ',' :: ' ' :: cs => some cs
  | _ => none

theorem length_readText {d : Dialect} {cs : List Char} {r : List Char × List Char}
    (h : readText d cs = some r) : r.2.length < cs.length := by
  fun_induction readText d cs generalizing r with
  | case1 => cases h
  | case3 => cases h; simp
  | case2 _ ih | case4 _ _ _ ih | case5 _ _ _ ih | case6 _ _ _ _ _ ih =>
    obtain ⟨r', hr', rfl⟩ := Option.map_eq_some_iff.mp h
    have hlength := ih hr'
    simp only [List.length_cons] at hlength ⊢
    omega

theorem length_readNatural {cs : List Char} {r : Nat × List Char} (h : readNatural cs = some r) :
    r.2.length ≤ cs.length := by
  obtain ⟨n, -, rfl⟩ := Option.map_eq_some_iff.mp h
  exact (List.dropWhile_sublist _).length_le

theorem length_read {d : Dialect} {cs : List Char} {r : Literal × List Char}
    (h : read d cs = some r) : r.2.length ≤ cs.length := by
  unfold read at h
  split at h
  · obtain ⟨r', hr', rfl⟩ := Option.map_eq_some_iff.mp h
    have hlength := length_readText hr'
    simp only [List.length_cons]
    omega
  · obtain ⟨r', hr', rfl⟩ := Option.map_eq_some_iff.mp h
    have hlength := length_readNatural hr'
    simp only [List.length_cons]
    omega
  · cases h
    simp only [List.length_cons]
    omega
  · obtain ⟨r', hr', rfl⟩ := Option.map_eq_some_iff.mp h
    exact length_readNatural hr'

theorem length_afterSeparator? {cs rest : List Char} (h : afterSeparator? cs = some rest) :
    rest.length < cs.length := by
  unfold afterSeparator? at h
  split at h
  · cases h
    simp only [List.length_cons]
    omega
  · cases h

/-- Reads literals as long as a separator follows. -/
def readItems (d : Dialect) (cs : List Char) : Option (List Literal × List Char) :=
  match _ : read d cs with
  | none => none
  | some (l, rest) =>
    match _ : afterSeparator? rest with
    | none => some ([l], rest)
    | some cs' => (readItems d cs').map fun r => (l :: r.1, r.2)
termination_by cs.length
decreasing_by
  have hread := length_read ‹read d cs = some (l, rest)›
  exact Nat.lt_of_lt_of_le (length_afterSeparator? ‹_›) hread

/-- Reads literals up to the end of a text. -/
def readList (d : Dialect) (s : String) : Option (List Literal) :=
  match readItems d s.toList with
  | some (ls, []) => some ls
  | _ => none

variable {d : Dialect}

theorem readItems_last {cs rest : List Char} {l : Literal} (h : read d cs = some (l, rest))
    (hrest : afterSeparator? rest = none) : readItems d cs = some ([l], rest) := by
  rw [readItems]
  split
  · simp_all
  · split <;> simp_all

theorem readItems_cons {cs rest : List Char} {l : Literal}
    (h : read d cs = some (l, ',' :: ' ' :: rest)) :
    readItems d cs = (readItems d rest).map fun r => (l :: r.1, r.2) := by
  rw [readItems]
  split
  · simp_all
  · split <;> simp_all [afterSeparator?]

/-- A backslash is a character like any other, unless the dialect has escapes. -/
theorem readText_backslash (hd : d ≠ .mysql) (cs : List Char) :
    readText d ('\\' :: cs) = (readText d cs).map fun r => ('\\' :: r.1, r.2) := by
  cases cs with
  | nil => simp [readText]
  | cons c cs => simp [readText, hd]

theorem readText_plain {c : Char} (hquote : c ≠ '\'') (hslash : c ≠ '\\') (cs : List Char) :
    readText d (c :: cs) = (readText d cs).map fun r => (c :: r.1, r.2) := by
  rw [readText]
  · simp [hquote]
  · exact hquote
  · simp [hslash]

/-- A character that does not go on with the literal before it. -/
def EndsLiteral (c : Char) : Prop := c ≠ '\'' ∧ c.isDigit = false

instance : DecidablePred EndsLiteral := fun _ => inferInstanceAs (Decidable (_ ∧ _))

/-- A quoted text ends at its own last quote. -/
theorem readText_quoted (s : List Char) {rest : List Char} (h : Text.Ends EndsLiteral rest) :
    readText d (s.flatMap d.quoteChar ++ '\'' :: rest) = some (s, rest) := by
  -- Each character is read back from its own one or two, and so the last quote is met as such.
  induction s with
  | nil =>
    cases rest with
    | nil => rfl
    | cons c cs =>
      have hc : c ≠ '\'' := (h c rfl).1
      simp [readText, hc]
  | cons c cs ih =>
    rw [List.flatMap_cons, List.append_assoc]
    by_cases hquote : c = '\''
    · simp [Dialect.quoteChar, hquote, readText, ih]
    · by_cases hslash : c = '\\'
      · by_cases hd : d = .mysql
        · subst hd
          simp [Dialect.quoteChar, hslash, readText, ih]
        · simp [Dialect.quoteChar, hslash, hd, readText_backslash hd, ih]
      · simp [Dialect.quoteChar, hquote, hslash, readText_plain hquote hslash, ih]

theorem readNatural_toDigits (n : Nat) {rest : List Char} (h : Text.Ends EndsLiteral rest) :
    readNatural (Nat.toDigits 10 n ++ rest) = some (n, rest) := by
  rw [readNatural, Text.takeWhile_toDigits n h fun _ hc => hc.2,
    Text.dropWhile_toDigits n h fun _ hc => hc.2, Text.readDigits?_toDigits]
  rfl

theorem read_digit {c : Char} (h : c.isDigit = true) (cs : List Char) :
    read d (c :: cs) = (readNatural (c :: cs)).map fun r => (.integer r.1, r.2) := by
  unfold read
  split <;> simp_all

theorem read_toDigits (n : Nat) {rest : List Char} (h : Text.Ends EndsLiteral rest) :
    read d (Nat.toDigits 10 n ++ rest) = some (.integer n, rest) := by
  cases hn : Nat.toDigits 10 n with
  | nil => exact absurd hn Nat.toDigits_ne_nil
  | cons c cs =>
    have hc : c.isDigit = true :=
      Text.isDigit_of_mem_toDigits (n := n) (by simp [hn])
    rw [List.cons_append, read_digit hc, ← List.cons_append, ← hn, readNatural_toDigits n h]
    rfl

/-- A text is read as a literal, whatever ends it. -/
def Reads (d : Dialect) (s : String) (l : Literal) : Prop :=
  ∀ rest, Text.Ends EndsLiteral rest → read d (s.toList ++ rest) = some (l, rest)

theorem reads_int (i : Int) : Reads d (toString i) (.integer i) := by
  intro rest h
  cases i with
  | ofNat n =>
    have htext : (toString (Int.ofNat n)).toList = Nat.toDigits 10 n := Nat.toList_repr
    rw [htext, read_toDigits n h]
    rfl
  | negSucc n =>
    -- The digits behind the sign are those of the successor.
    have htext : (toString (Int.negSucc n)).toList = '-' :: Nat.toDigits 10 (n + 1) := by
      simp [Int.toString_eq_repr, Int.repr]
    rw [htext, List.cons_append, read, readNatural_toDigits _ h]
    rfl

theorem reads_quoteLiteral (s : String) : Reads d (d.quoteLiteral s) (.text s) := by
  intro rest h
  have htext : (d.quoteLiteral s).toList ++ rest =
      '\'' :: (s.toList.flatMap d.quoteChar ++ '\'' :: rest) := by
    simp [Dialect.quoteLiteral]
  rw [htext, read, readText_quoted _ h, Option.map_some, String.ofList_toList]

theorem exists_literal {v : Value} {l : Literal} (c : Clause) (column : String)
    (h : ofValue? v = some l) :
    ∃ s, Condition.literal d.quoteLiteral c column v = .ok s ∧ Reads d s l := by
  cases v with
  | null =>
    cases h
    exact ⟨"NULL", rfl, fun _ _ => rfl⟩
  | bool b =>
    cases h
    refine ⟨_, rfl, ?_⟩
    cases b
    · exact reads_int 0
    · exact reads_int 1
  | int i =>
    cases h
    exact ⟨_, rfl, reads_int i.toInt⟩
  | float x => cases h
  | text s =>
    cases h
    exact ⟨_, rfl, reads_quoteLiteral s⟩

theorem exists_literals {vs : List Value} {ls : List Literal} (c : Clause) (column : String)
    (h : List.Forall₂ (fun v l => ofValue? v = some l) vs ls) :
    ∃ ss, List.Forall₂ (fun v s => Condition.literal d.quoteLiteral c column v = .ok s) vs ss ∧
      List.Forall₂ (Reads d) ss ls := by
  induction h with
  | nil => exact ⟨[], .nil, .nil⟩
  | cons hv _ ih =>
    obtain ⟨s, hs, hreads⟩ := exists_literal c column hv
    obtain ⟨ss, hss, hall⟩ := ih
    exact ⟨s :: ss, .cons hs hss, .cons hreads hall⟩

theorem readItems_intercalate {ss : List String} {ls : List Literal} {rest : List Char}
    (h : List.Forall₂ (Reads d) ss ls) (hne : ss ≠ []) (hends : Text.Ends EndsLiteral rest)
    (hlast : afterSeparator? rest = none) :
    readItems d ((", ".intercalate ss).toList ++ rest) = some (ls, rest) := by
  induction h with
  | nil => exact absurd rfl hne
  | @cons s l ss ls hs hss ih =>
    cases hss with
    | nil =>
      rw [String.intercalate_singleton]
      exact readItems_last (hs rest hends) hlast
    | @cons s' l' ss ls hs' hss =>
      have hrest := ih (by simp)
      have htext : (", ".intercalate (s :: s' :: ss)).toList ++ rest =
          s.toList ++ ',' :: ' ' :: ((", ".intercalate (s' :: ss)).toList ++ rest) := by
        simp [String.intercalate_cons_cons]
      rw [htext, readItems_cons (hs _ (Text.ends_cons (by decide) _)), hrest]
      rfl

end Literal

end TableAccess.Sql

namespace TableAccess

namespace Condition
variable {quote : String → String} {c : Clause} {column : String} {op : Option String}
  {o : Operator} {vs : List Value} {ss : List String}

theorem resolveOperator_of_operator? {operand : Operand} (h : operator? op operand = some o) :
    resolveOperator c column operand op = .ok o := by
  cases op with
  | none => cases operand <;> cases h <;> rfl
  | some s =>
    have hparse : Operator.parse? s = some o := h
    simp [resolveOperator, hparse]

theorem compile_membership (hcolumn : (Text.trim column).isEmpty = false)
    (hop : operator? op (.list vs) = some o) (hmember : o.isMembership)
    (hss : List.Forall₂ (fun v s => literal quote c (Text.trim column) v = .ok s) vs ss)
    (hne : ss ≠ []) (d : Dialect) :
    (⟨[.compare column op (.list vs)]⟩ : Filter).compile ⟨d, quote⟩ c =
      .ok (Text.trim column ++ " " ++ o.sql ++ " (" ++ ", ".intercalate ss ++ ")", []) := by
  have hlowers : LowersTo quote c (.compare column op (.list vs))
      (.inLiterals (Text.trim column) ss (o == .notIn)) := by
    refine lowersTo_compare.mpr ⟨hcolumn, o, resolveOperator_of_operator? hop, ?_⟩
    simp only [lowerOperand, hmember, if_true]
    exact membership_eq_ok.mpr ⟨ss, hss, rfl⟩
  have hpieces := Sql.Expr.pieces_all_singleton (isGrouped_compare hlowers)
  refine Filter.compile_eq_ok.mpr ⟨_, Filter.toExpr_eq_ok.mpr ⟨_, .cons hlowers .nil, rfl⟩, ?_, ?_⟩
  · rw [hpieces, Sql.Expr.spell_inLiterals hmember hne]
  · rw [hpieces, values_inLiterals]

end Condition

/-- A list is written so that its members are read back, the whole text and no more, whatever
stands behind the closing parenthesis. -/
theorem list_reads_back (d : Dialect) (c : Clause) (column : String) (op : Option String)
    (o : Operator) (vs : List Value) (ls : List Sql.Literal)
    (hcolumn : (Text.trim column).isEmpty = false)
    (hop : Condition.operator? op (.list vs) = some o) (hmember : o.isMembership) (hne : vs ≠ [])
    (hls : List.Forall₂ (fun v l => Sql.Literal.ofValue? v = some l) vs ls) :
    ∃ body,
      (⟨[.compare column op (.list vs)]⟩ : Filter).compile d.target c =
          .ok (Text.trim column ++ " " ++ o.sql ++ " (" ++ body ++ ")", []) ∧
        Sql.Literal.readList d body = some ls ∧
          ∀ rest,
            Sql.Literal.readItems d (body.toList ++ ')' :: rest) = some (ls, ')' :: rest) := by
  obtain ⟨ss, hss, hreads⟩ := Sql.Literal.exists_literals c (Text.trim column) hls
  have hss_ne : ss ≠ [] := by
    rintro rfl
    exact hne (List.forall₂_nil_right_iff.mp hss)
  have hcompile := Condition.compile_membership hcolumn hop hmember hss hss_ne d
  refine ⟨_, hcompile, ?_, fun rest => ?_⟩
  · have hread := Sql.Literal.readItems_intercalate hreads hss_ne Text.ends_nil rfl
    rw [List.append_nil] at hread
    rw [Sql.Literal.readList, hread]
  · exact Sql.Literal.readItems_intercalate hreads hss_ne (Text.ends_cons (by decide) _) rfl

/-- Members that hold what ends a text, escapes a character or separates two members. -/
def Value.awkward : List Value :=
  [.text "it's, (\\", .null, .text "', '", .bool true, .int (-7), .text "\\'"]

theorem list_reads_back_awkward :
    ∃ body,
      (⟨[.compare " code " (some "not in") (.list Value.awkward)]⟩ : Filter).compile
          Dialect.mysql.target .rowFilter = .ok ("code NOT IN (" ++ body ++ ")", []) ∧
        Sql.Literal.readList .mysql body = some [.text "it's, (\\", .null, .text "', '",
          .integer 1, .integer (-7), .text "\\'"] ∧
        ∀ rest, Sql.Literal.readItems .mysql (body.toList ++ ')' :: rest) =
          some ([.text "it's, (\\", .null, .text "', '", .integer 1, .integer (-7),
            .text "\\'"], ')' :: rest) :=
  list_reads_back .mysql .rowFilter " code " (some "not in") .notIn Value.awkward _ rfl rfl rfl
    (by simp [Value.awkward])
    (.cons rfl (.cons rfl (.cons rfl (.cons rfl (.cons rfl (.cons rfl .nil))))))

end TableAccess
