import TableAccess.Proofs.PagingClauses
import TableAccess.Proofs.Tokens

/-!
# Paging

Each dialect has clauses of its own for a limit and an offset, and some have none for an offset
alone. Whichever clauses the builder writes, they are read as the page that was asked for.
-/
namespace TableAccess

/-- The number that a dialect writes for no limit. -/
def Dialect.noLimitNumber? (d : Dialect) : Option Int :=
  match d with
  | .sqlite => some (-1)
  | .mysql => some 18446744073709551615
  | _ => none

/-- The number that limits the rows: the limit, or what stands for none before an offset. -/
def Dialect.limitNumber? (d : Dialect) (limit offset : Option Nat) : Option Int :=
  (limit.map Int.ofNat).or (offset.bind fun _ => d.noLimitNumber?)

namespace Sql.Select
open Token (expand)

/-- The rows of a page: those behind the offset, and no more of them than the limit. -/
def page {α : Type} (s : Select) (rs : List α) : List α :=
  let skipped := rs.drop (s.offset?.getD 0)
  s.limit?.elim skipped skipped.take

def unpaged (s : Select) : Select := { s with limit? := none, offset? := none }

variable (s : Select) (fill : String → List String)

/-- The words of a selection, the texts that it was given being read as some words. -/
def readWords : List String := "SELECT" :: expand fill s.tokens

/-- The paging clauses that a selection is to have. -/
def paging : Paging where
  top? :=
    if s.dialect.limitsBeforeColumns s.limit? s.offset? then s.limit?.map Int.ofNat else none
  limit? :=
    if s.dialect.limitsBeforeColumns s.limit? s.offset? then none
    else s.dialect.limitNumber? s.limit? s.offset?
  offset? := s.offset?.map Int.ofNat

variable {s fill}

theorem readWords_eq :
    s.readWords fill = "SELECT" :: expand fill s.headTokens
      ++ expand fill (s.dialect.topTokens s.limit? s.offset?)
      ++ expand fill (s.rowTokens ++ termTokens "ORDER BY" s.orders)
      ++ expand fill (s.dialect.tailTokens s.limit? s.offset? (!s.orders.isEmpty)) := by
  simp [readWords, tokens]

theorem readWords_unpaged :
    s.unpaged.readWords fill = "SELECT" :: expand fill s.headTokens
      ++ expand fill (s.rowTokens ++ termTokens "ORDER BY" s.orders) := by
  have htail : s.dialect.tailTokens none none (!s.orders.isEmpty) = [] := by
    cases s.dialect <;> rfl
  rw [readWords_eq]
  change _ ++ expand fill [] ++ expand fill (s.rowTokens ++ termTokens "ORDER BY" s.orders)
    ++ expand fill (s.dialect.tailTokens none none (!s.orders.isEmpty)) = _
  rw [htail, Token.expand_nil, List.append_nil, List.append_nil]
  rfl

theorem isHeadWord_headTokens {w : String} (h : w ∈ "SELECT" :: expand fill s.headTokens) :
    Paging.isHeadWord w = true := by
  have hdistinct : expand fill [.own "DISTINCT"] = ["DISTINCT"] := rfl
  have hwords : w = "SELECT" ∨ w = "DISTINCT" := by
    unfold headTokens at h
    split_ifs at h
    · simpa [hdistinct] using h
    · exact .inl (by simpa using h)
  rcases hwords with rfl | rfl <;> rfl

theorem from_mem_readWords :
    "FROM" ∈ expand fill (s.rowTokens ++ termTokens "ORDER BY" s.orders) := by
  refine List.mem_flatMap.mpr ⟨.own "FROM", by simp [rowTokens], ?_⟩
  have hfrom : Text.wordsOf "FROM" = ["FROM"] := rfl
  simp [Token.words, hfrom]

/-- The words behind an ordering that rows are skipped with. -/
theorem expand_tailTokens (fill : String → List String) (limit : Option Nat) (m : Nat)
    (ordered : Bool) :
    expand fill (Dialect.tailTokens .sqlserver limit (some m) ordered) =
      expand fill (Dialect.anyOrder ordered) ++ ["OFFSET", toString m, "ROWS"]
        ++ limit.elim [] fun n => ["FETCH", "NEXT", toString n, "ROWS", "ONLY"] := by
  have hrows : expand fill [.own "OFFSET", .number m, .own "ROWS"] =
      ["OFFSET", toString m, "ROWS"] := rfl
  cases limit with
  | none =>
    rw [Dialect.tailTokens, List.append_nil, Token.expand_append, hrows, Option.elim_none,
      List.append_nil]
  | some n =>
    rw [Dialect.tailTokens, Token.expand_append, Token.expand_append, hrows]
    rfl

theorem read_readWords_sqlserver (hd : s.dialect = .sqlserver)
    (h : Paging.read .sqlserver (s.unpaged.readWords fill) = {}) :
    Paging.read .sqlserver (s.readWords fill) = s.paging := by
  rw [readWords_unpaged] at h
  rw [readWords_eq, paging, hd]
  cases hoffset : s.offset? with
  | none =>
    cases hlimit : s.limit? with
    | none =>
      simpa [Dialect.topTokens, Dialect.tailTokens, Dialect.limitsBeforeColumns,
        Dialect.limitNumber?] using h
    | some n =>
      have htop : expand fill (Dialect.topTokens .sqlserver (some n) none) = ["TOP", toString n] :=
        rfl
      rw [htop]
      simpa [Dialect.tailTokens, Dialect.limitsBeforeColumns] using
        Paging.read_append_top (fun w => isHeadWord_headTokens) (Text.readInteger?_toString n) h
  | some m =>
    have hfrom : "FROM" ∈ "SELECT" :: expand fill s.headTokens
        ++ expand fill (s.rowTokens ++ termTokens "ORDER BY" s.orders) :=
      List.mem_append_right _ from_mem_readWords
    have htop : expand fill (Dialect.topTokens .sqlserver s.limit? (some m)) = [] := by
      cases s.limit? <;> rfl
    rw [htop, List.append_nil, expand_tailTokens, ← List.append_assoc, ← List.append_assoc]
    cases hlimit : s.limit? with
    | none =>
      rw [Option.elim_none, List.append_nil]
      exact Paging.read_append_rows _ hfrom (Text.readInteger?_toString m) h
    | some n =>
      exact Paging.read_append_fetch _ hfrom (Text.readInteger?_toString m)
        (Text.readInteger?_toString n) h

theorem expand_limitTokens (fill : String → List String) (d : Dialect) (limit offset : Option Nat) :
    (expand fill (d.limitTokens limit offset) = [] ∧ d.limitNumber? limit offset = none) ∨
      ∃ number n, expand fill (d.limitTokens limit offset) = ["LIMIT", number] ∧
        Text.readInteger? number = some n ∧ d.limitNumber? limit offset = some n := by
  cases limit with
  | some n => exact .inr ⟨_, _, rfl, Text.readInteger?_toString n, rfl⟩
  | none =>
    cases offset with
    | none => exact .inl ⟨rfl, rfl⟩
    | some m =>
      cases d with
      | sqlite => exact .inr ⟨"-1", -1, rfl, by decide, rfl⟩
      | mysql => exact .inr ⟨"18446744073709551615", _, rfl, by decide, rfl⟩
      | postgres | sqlserver => exact .inl ⟨rfl, rfl⟩

theorem read_append_tail {d : Dialect} {ws : List String} (hd : d ≠ .sqlserver)
    (h : Paging.read d ws = {}) (limit offset : Option Nat) :
    Paging.read d (ws ++ expand fill (d.limitTokens limit offset)
        ++ expand fill (Dialect.offsetTokens offset)) =
      { limit? := d.limitNumber? limit offset, offset? := offset.map Int.ofNat } := by
  obtain ⟨-, hunlimited⟩ := (Paging.read_eq_empty hd).mp h
  have hlimits := expand_limitTokens fill d limit offset
  cases offset with
  | none =>
    rcases hlimits with ⟨hwords, hnumber⟩ | ⟨number, n, hwords, hread, hnumber⟩
    · simpa [hwords, hnumber, Dialect.offsetTokens] using h
    · simpa [hwords, hnumber, Dialect.offsetTokens] using Paging.read_append_limit hd hread
  | some m =>
    have hoffset : expand fill (Dialect.offsetTokens (some m)) = ["OFFSET", toString m] := rfl
    rw [hoffset, Paging.read_append_offset hd (Text.readInteger?_toString m)]
    rcases hlimits with ⟨hwords, hnumber⟩ | ⟨number, n, hwords, hread, hnumber⟩
    · rw [hwords, hnumber, List.append_nil, hunlimited]
      rfl
    · rw [hwords, hnumber, Paging.cutEndClause_limit ws hread]
      rfl

theorem read_readWords_of_ne (hd : s.dialect ≠ .sqlserver)
    (h : Paging.read s.dialect (s.unpaged.readWords fill) = {}) :
    Paging.read s.dialect (s.readWords fill) = s.paging := by
  have htop : s.dialect.limitsBeforeColumns s.limit? s.offset? = false := by
    simp [Dialect.limitsBeforeColumns, hd]
  have hhead : s.dialect.topTokens s.limit? s.offset? = [] := by
    unfold Dialect.topTokens
    cases hlimit : s.limit? with
    | none => rfl
    | some n =>
      rw [hlimit] at htop
      simp [htop]
  have htail : s.dialect.tailTokens s.limit? s.offset? (!s.orders.isEmpty) =
      s.dialect.limitTokens s.limit? s.offset? ++ Dialect.offsetTokens s.offset? := by
    cases hdialect : s.dialect with
    | sqlserver => exact absurd hdialect hd
    | postgres | mysql | sqlite => rfl
  have hwords : s.readWords fill = s.unpaged.readWords fill
      ++ expand fill (s.dialect.limitTokens s.limit? s.offset?)
      ++ expand fill (Dialect.offsetTokens s.offset?) := by
    rw [readWords_eq, readWords_unpaged, hhead, htail, Token.expand_nil, List.append_nil,
      Token.expand_append fill (s.dialect.limitTokens _ _), ← List.append_assoc]
  rw [hwords, read_append_tail hd h, paging, htop]
  rfl

theorem read_readWords (h : Paging.read s.dialect (s.unpaged.readWords fill) = {}) :
    Paging.read s.dialect (s.readWords fill) = s.paging := by
  by_cases hd : s.dialect = .sqlserver
  · rw [hd] at h ⊢
    exact read_readWords_sqlserver hd h
  · exact read_readWords_of_ne hd h

theorem wordsOf_build : Text.wordsOf s.build.sql = s.readWords Text.wordsOf := by
  rw [build_sql_eq, Token.wordsOf_append_spaced]
  rfl

/-- The builder writes no number but for the paging. -/
theorem read_own_words : Paging.read s.dialect (s.unpaged.readWords fun _ => []) = {} := by
  refine Paging.read_of_no_number fun w hw => ?_
  have hkeywords : ∀ k ∈ ["DISTINCT", "FROM", "WHERE", "GROUP BY", "HAVING", "ORDER BY"],
      ∀ w ∈ Text.wordsOf k, Text.readInteger? w = none := by decide
  rw [readWords_unpaged] at hw
  rcases List.mem_append.mp hw with hhead | hrest
  · rcases List.mem_cons.mp hhead with rfl | hhead
    · decide
    · obtain ⟨k, hk, hw⟩ := Token.mem_expand_plain s.isPlain_headTokens hhead
      exact hkeywords k (by simp_all) w hw
  · obtain ⟨k, hk, hw⟩ := Token.mem_expand_plain s.isPlain_bodyTokens hrest
    exact hkeywords k (by simp_all) w hw

/-- The clauses take a page of every result, and the limit is in exactly one of them. -/
structure IsPaged (s : Select) (p : Paging) : Prop where
  rows_eq : ∀ {α : Type} (rs : List α), rs.length < 2 ^ 64 → p.rows s.dialect rs = s.page rs
  limited : ∀ n : Nat, s.limit? = some n →
    p.top? = some (n : Int) ∧ p.limit? = none ∨ p.top? = none ∧ p.limit? = some (n : Int)
  unlimited : s.limit? = none →
    p.top? = none ∧ ∀ n, p.limit? = some n → Paging.cap s.dialect n = none

theorem elim_cap {α : Type} {rs : List α} (hrs : rs.length < 2 ^ 64) (d : Dialect) (n : Nat) :
    (Paging.cap d n).elim rs rs.take = rs.take n := by
  unfold Paging.cap
  split_ifs with hcap
  · have hall : rs.length ≤ n := by omega
    exact (List.take_of_length_le hall).symm
  · rfl

theorem cap_limitNumber? {d : Dialect} {offset : Option Nat} {n : Int}
    (h : d.limitNumber? none offset = some n) : Paging.cap d n = none := by
  obtain ⟨m, -, hnumber⟩ : ∃ m, offset = some m ∧ d.noLimitNumber? = some n :=
    Option.bind_eq_some_iff.mp h
  cases d with
  | sqlite | mysql =>
    obtain rfl := Option.some.inj hnumber
    rfl
  | postgres | sqlserver => simp [Dialect.noLimitNumber?] at hnumber

theorem paging_of_top (h : s.dialect.limitsBeforeColumns s.limit? s.offset? = true) :
    s.offset? = none ∧ s.paging = { top? := s.limit?.map Int.ofNat } := by
  have hoffset : s.offset? = none := by
    simp only [Dialect.limitsBeforeColumns, Bool.and_eq_true] at h
    simpa using h.2
  refine ⟨hoffset, ?_⟩
  rw [paging, if_pos h, if_pos h, hoffset]
  rfl

theorem paging_of_tail (h : s.dialect.limitsBeforeColumns s.limit? s.offset? = false) :
    s.paging = { limit? := s.dialect.limitNumber? s.limit? s.offset?,
                 offset? := s.offset?.map Int.ofNat } := by
  rw [paging, h]
  rfl

theorem rows_paging {α : Type} {rs : List α} (hrs : rs.length < 2 ^ 64) :
    s.paging.rows s.dialect rs = s.page rs := by
  cases htop : s.dialect.limitsBeforeColumns s.limit? s.offset? with
  | true =>
    obtain ⟨hoffset, hpaging⟩ := paging_of_top htop
    rw [hpaging, page, hoffset]
    cases s.limit? with
    | none => rfl
    | some n => exact elim_cap hrs s.dialect n
  | false =>
    have hskipped : (rs.drop (s.offset?.getD 0)).length < 2 ^ 64 := by
      rw [List.length_drop]
      omega
    have hoffset : (s.offset?.map Int.ofNat).elim 0 Int.toNat = s.offset?.getD 0 := by
      cases s.offset? <;> rfl
    rw [paging_of_tail htop, Paging.rows, page]
    simp only [hoffset, Option.bind_none, Option.elim_none]
    cases hlimit : s.limit? with
    | some n => exact elim_cap hskipped s.dialect n
    | none =>
      cases hnumber : s.dialect.limitNumber? none s.offset? with
      | none => rfl
      | some n =>
        rw [Option.bind_some, cap_limitNumber? hnumber, Option.elim_none]

theorem isPaged_paging (s : Select) : s.IsPaged s.paging where
  rows_eq _ hrs := rows_paging hrs
  limited n hn := by
    cases htop : s.dialect.limitsBeforeColumns s.limit? s.offset? with
    | true => exact .inl (by rw [(paging_of_top htop).2, hn]; exact ⟨rfl, rfl⟩)
    | false => exact .inr (by rw [paging_of_tail htop, hn]; exact ⟨rfl, rfl⟩)
  unlimited hnone := by
    have htop : s.dialect.limitsBeforeColumns s.limit? s.offset? = false := by
      simp [Dialect.limitsBeforeColumns, hnone]
    rw [paging_of_tail htop, hnone]
    exact ⟨rfl, fun n hn => cap_limitNumber? hn⟩

/-- The keywords that a limit stands behind. -/
def isLimitKeyword (t : Token) : Bool := t ∈ [.own "TOP", .own "LIMIT", .own "FETCH NEXT"]

theorem countP_of_isPlain {ks : List String} {ts : List Token} (hts : ∀ t ∈ ts, t.IsPlain ks)
    (hks : ∀ k ∈ ks, isLimitKeyword (.own k) = false) : ts.countP isLimitKeyword = 0 := by
  refine List.countP_eq_zero.mpr fun t ht => ?_
  have hplain := hts t ht
  cases t with
  | own k => simp [hks k hplain]
  | number n => exact absurd hplain id
  | given u => simp [isLimitKeyword]

theorem countP_paging (d : Dialect) (n : Nat) (offset : Option Nat) (ordered : Bool) :
    (d.topTokens (some n) offset).countP isLimitKeyword
      + (d.tailTokens (some n) offset ordered).countP isLimitKeyword = 1 := by
  cases d <;> cases offset <;> cases ordered <;> rfl

/-- A limit is written once, before the columns or behind the ordering. -/
theorem countP_isLimitKeyword {n : Nat} (h : s.limit? = some n) :
    s.tokens.countP isLimitKeyword = 1 := by
  have hhead : s.headTokens.countP isLimitKeyword = 0 :=
    countP_of_isPlain s.isPlain_headTokens (by decide)
  have hbody : (s.rowTokens ++ termTokens "ORDER BY" s.orders).countP isLimitKeyword = 0 :=
    countP_of_isPlain s.isPlain_bodyTokens (by decide)
  have hpaging := countP_paging s.dialect n s.offset? (!s.orders.isEmpty)
  rw [List.countP_append] at hbody
  simp only [tokens, h, List.countP_append]
  omega

/-- What the rows are ordered by where they are skipped: the terms that were given, or nothing. -/
def orderToken (s : Select) : Token :=
  if s.orders.isEmpty then .own "(SELECT NULL)" else .given (", ".intercalate s.orders)

/-- Where rows are skipped behind an ordering, the ordering is there and is the only one. -/
theorem tokens_ordered (hd : s.dialect = .sqlserver) {m : Nat} (hm : s.offset? = some m) :
    ∃ front fetch,
      s.tokens = front ++ [.own "ORDER BY", s.orderToken]
        ++ [.own "OFFSET", .number m, .own "ROWS"] ++ fetch ∧
      .own "ORDER BY" ∉ front ∧ .own "ORDER BY" ∉ fetch := by
  have htop : Dialect.topTokens .sqlserver s.limit? (some m) = [] := by
    cases s.limit? <;> rfl
  have horder : termTokens "ORDER BY" s.orders ++ Dialect.anyOrder (!s.orders.isEmpty) =
      [.own "ORDER BY", s.orderToken] := by
    rw [termTokens, Dialect.anyOrder, orderToken]
    cases s.orders.isEmpty <;> rfl
  obtain ⟨fetch, htail, hfetch⟩ : ∃ fetch,
      Dialect.tailTokens .sqlserver s.limit? (some m) (!s.orders.isEmpty) =
        Dialect.anyOrder (!s.orders.isEmpty)
          ++ [.own "OFFSET", .number m, .own "ROWS"] ++ fetch ∧
      .own "ORDER BY" ∉ fetch := by
    refine ⟨_, rfl, ?_⟩
    cases s.limit? <;> simp
  refine ⟨s.headTokens ++ s.rowTokens, fetch, ?_, ?_, hfetch⟩
  · rw [tokens, hd, hm, htop, List.append_nil, htail, ← horder]
    simp only [List.append_assoc]
  · intro hmem
    rcases List.mem_append.mp hmem with hhead | hrow
    · simpa [Token.IsPlain] using s.isPlain_headTokens _ hhead
    · simpa [Token.IsPlain] using s.isPlain_rowTokens _ hrow

/-- The text of a selection pages every result alike in all dialects: what the builder writes of its
own does, and so does the whole text unless the given texts page by themselves. -/
theorem paging_uniform (s : Select) :
    s.build.sql = "SELECT" ++ Token.spaced s.tokens ∧
      s.IsPaged (Paging.read s.dialect (s.readWords fun _ => [])) ∧
      (Paging.read s.dialect (Text.wordsOf s.unpaged.build.sql) = {} →
        s.IsPaged (Paging.read s.dialect (Text.wordsOf s.build.sql))) ∧
      (∀ n, s.limit? = some n → s.tokens.countP isLimitKeyword = 1) ∧
      (s.dialect = .sqlserver → ∀ m, s.offset? = some m →
        ∃ front fetch,
          s.tokens = front ++ [.own "ORDER BY", s.orderToken]
            ++ [.own "OFFSET", .number m, .own "ROWS"] ++ fetch ∧
          .own "ORDER BY" ∉ front ∧ .own "ORDER BY" ∉ fetch) := by
  refine ⟨build_sql_eq s, ?_, ?_, fun _ => countP_isLimitKeyword,
    fun hd _ hm => tokens_ordered hd hm⟩
  · rw [read_readWords read_own_words]
    exact isPaged_paging s
  · intro h
    rw [wordsOf_build] at h ⊢
    rw [read_readWords h]
    exact isPaged_paging s

/-- The third page of some users, in no order. -/
def thirdPage : Select where
  dialect := .sqlserver
  source := "users"
  columns := ["id", "name"]
  filter := ⟨[.compare "age" ">" (.int 30)]⟩
  limit? := some 10
  offset? := some 20

theorem paging_uniform_thirdPage :
    thirdPage.build.sql = "SELECT id, name FROM users WHERE age > ? ORDER BY (SELECT NULL) " ++
        "OFFSET 20 ROWS FETCH NEXT 10 ROWS ONLY" ∧
      Paging.read .sqlserver (Text.wordsOf thirdPage.unpaged.build.sql) = {} ∧
      thirdPage.IsPaged (Paging.read .sqlserver (Text.wordsOf thirdPage.build.sql)) := by
  have hunpaged : Paging.read .sqlserver (Text.wordsOf thirdPage.unpaged.build.sql) = {} := by
    decide
  obtain ⟨-, -, hpaged, -, -⟩ := paging_uniform thirdPage
  exact ⟨rfl, hunpaged, hpaged hunpaged⟩

end Sql.Select

end TableAccess
