import TableAccess.Proofs.AlikeStatements

/-!
# Writes that differ in values only

Two runs of a write whose payloads have the same columns and whose criteria have one shape, against
a gateway that gives the same answers. They send the same texts, and each bound value of the one
run stands where the other one binds the value from the same entry of the arguments.
-/
namespace TableAccess

/-- Two calls send one text with related values. -/
def Call.SentAlike (R : Value → Value → Prop) : Call → Call → Prop
  | .query st _, .query st' _ => st.SentAlike R st'
  | .execute st _, .execute st' _ => st.SentAlike R st'
  | .lastKey sequence _, .lastKey sequence' _ => sequence = sequence'
  | _, _ => False

/-- Two calls of one kind have one answer. -/
def Call.AnsweredAlike : Call → Call → Prop
  | .query _ answer, .query _ answer' => answer = answer'
  | .execute _ answer, .execute _ answer' => answer = answer'
  | .lastKey _ answer, .lastKey _ answer' => answer = answer'
  | _, _ => True

/-- Two runs get the same answers, as long as they ask for the same. -/
def AnsweredAlike (calls calls' : List Call) : Prop :=
  ∀ p ∈ calls.zip calls', p.1.AnsweredAlike p.2

/-- Two writes send the same calls if they get the same answers. -/
def SameCalls (R : Value → Value → Prop) (calls calls' : List Call) : Prop :=
  AnsweredAlike calls calls' → List.Forall₂ (Call.SentAlike R) calls calls'

section Calls
variable {R : Value → Value → Prop} {calls calls' : List Call}
  {outcome outcome' : Except Error WriteOutcome}

theorem answeredAlike_cons {c c' : Call} :
    AnsweredAlike (c :: calls) (c' :: calls') ↔
      c.AnsweredAlike c' ∧ AnsweredAlike calls calls' := by
  simp only [AnsweredAlike, List.zip_cons_cons, List.forall_mem_cons]

theorem AnsweredAlike.head {c c' : Call} (h : AnsweredAlike (c :: calls) (c' :: calls')) :
    c.AnsweredAlike c' :=
  (answeredAlike_cons.mp h).1

/-- Whether a mutation is sent is settled by the answer to its count. -/
theorem Counted.calls_eq {count mutation : Sql.Statement}
    (h : Counted count mutation calls outcome) :
    ∃ found : Except Error (List Row),
      (calls = [.query count found] ∧
        ∀ k, (found >>= fun rows => readCount rows countAlias) ≠ .ok (k + 1)) ∨
      ∃ k answer, calls = [.query count found, .execute mutation answer] ∧
        (found >>= fun rows => readCount rows countAlias) = .ok (k + 1) := by
  cases h with
  | failed e => exact ⟨_, .inl ⟨rfl, by simp [bind, Except.bind]⟩⟩
  | unreadable hread => exact ⟨_, .inl ⟨rfl, by simp [bind, Except.bind, hread]⟩⟩
  | nothing hread => exact ⟨_, .inl ⟨rfl, by simp [bind, Except.bind, hread]⟩⟩
  | sent hread answer => exact ⟨_, .inr ⟨_, answer, rfl, hread⟩⟩

theorem Counted.sameCalls {count count' mutation mutation' : Sql.Statement}
    (hcount : count.SentAlike R count') (hmutation : mutation.SentAlike R mutation')
    (h : Counted count mutation calls outcome) (h' : Counted count' mutation' calls' outcome') :
    SameCalls R calls calls' := by
  intro hanswers
  obtain ⟨found, hcalls⟩ := h.calls_eq
  obtain ⟨found', hcalls'⟩ := h'.calls_eq
  -- Each run begins with its count, whatever follows.
  have hfound : found = found' := by
    rcases hcalls with ⟨rfl, -⟩ | ⟨k, answer, rfl, -⟩ <;>
      rcases hcalls' with ⟨rfl, -⟩ | ⟨k', answer', rfl, -⟩ <;> exact hanswers.head
  subst hfound
  rcases hcalls with ⟨rfl, hstop⟩ | ⟨k, answer, rfl, hgo⟩
  · rcases hcalls' with ⟨rfl, -⟩ | ⟨k', answer', rfl, hgo⟩
    · exact .cons hcount .nil
    · exact absurd hgo (hstop k')
  · rcases hcalls' with ⟨rfl, hstop⟩ | ⟨k', answer', rfl, -⟩
    · exact absurd hgo (hstop k)
    · exact .cons hcount (.cons hmutation .nil)

theorem Inserted.sameCalls {insertion insertion' : Sql.Statement} {sequence : Option String}
    {finish finish' : Option Value → Except Error WriteOutcome}
    (hinsertion : insertion.SentAlike R insertion')
    (h : Inserted insertion sequence finish calls outcome)
    (h' : Inserted insertion' sequence finish' calls' outcome') : SameCalls R calls calls' := by
  intro hanswers
  cases h with
  | failed e =>
    cases h' with
    | failed e' => exact .cons hinsertion .nil
    | sent n answer => cases hanswers.head
  | sent n answer =>
    cases h' with
    | failed e => cases hanswers.head
    | sent n' answer' => exact .cons hinsertion (.cons rfl .nil)

theorem Planned.sameCalls {π : Type} {Q : π → π → Prop} {plan plan' : Except Error π}
    {carriedOut carriedOut' : π → List Call → Except Error WriteOutcome → Prop}
    (hplan : EndAlike Q plan plan')
    (hcalls : ∀ {p p'}, Q p p' → carriedOut p calls outcome → carriedOut' p' calls' outcome' →
      SameCalls R calls calls')
    (h : Planned plan carriedOut calls outcome) (h' : Planned plan' carriedOut' calls' outcome') :
    SameCalls R calls calls' := by
  cases hplan with
  | error e =>
    cases h with
    | refused =>
      cases h' with
      | refused => exact fun _ => .nil
      | made hmade => cases hmade
    | made hmade => cases hmade
  | ok hQ =>
    cases h with
    | refused hrefused => cases hrefused
    | made hmade hdone =>
      cases h' with
      | refused hrefused => cases hrefused
      | made hmade' hdone' =>
        cases hmade
        cases hmade'
        exact hcalls hQ hdone hdone'

end Calls

/-- The same columns in the same order, with single values at the same places and the same lists. -/
def Criteria.SameShape (criteria criteria' : Criteria) : Prop :=
  List.Forall₂ (EntryAlike fun _ _ => True) criteria.entries criteria'.entries

namespace Writer
variable {σ : Type} (w : Writer σ)

/-- Two values that the runs of a write with these arguments bind at one place: the time, or the
values of one entry in both payloads or in both criteria. -/
inductive BoundAt (payload payload' : Row) (criteria criteria' : Criteria) :
    Value → Value → Prop
  | time : BoundAt payload payload' criteria criteria' (.text w.timestamp) (.text w.timestamp)
  | written {column : String} {v v' : Value}
      (h : ((column, v), (column, v')) ∈ payload.entries.zip payload'.entries) :
    BoundAt payload payload' criteria criteria' v v'
  | matched {column : String} {v v' : Value}
      (h : ((column, Operand.scalar v), (column, .scalar v')) ∈
        criteria.entries.zip criteria'.entries) :
    BoundAt payload payload' criteria criteria' v v'

/-- Two payloads leave the same columns to the database. -/
def SameGenerated (payload payload' : Row) : Prop :=
  ∀ column v v', ((column, v), (column, v')) ∈ payload.entries.zip payload'.entries →
    w.schema.isAutoincrement column → v.isEmpty = v'.isEmpty

variable {payload payload' : Row} {criteria criteria' : Criteria}

theorem entries_alike (h : payload.columns = payload'.columns) :
    payload.Alike (fun column v v' =>
      ((column, v), (column, v')) ∈ payload.entries.zip payload'.entries) payload' := by
  have hcolumns : List.Forall₂ (fun e e' => e.1 = e'.1) payload.entries payload'.entries := by
    refine List.forall₂_map_left_iff.mp (List.forall₂_map_right_iff.mp ?_)
    rw [List.forall₂_eq_eq_eq]
    exact h
  refine (forall₂_and_zip hcolumns).imp ?_
  rintro ⟨column, v⟩ ⟨column', v'⟩ ⟨rfl, hmem⟩
  exact ⟨rfl, hmem⟩

theorem criteria_alike (h : criteria.SameShape criteria') (payload payload' : Row) :
    List.Forall₂ (Criteria.EntryAlike (w.BoundAt payload payload' criteria criteria'))
      criteria.entries criteria'.entries := by
  refine (forall₂_and_zip h).imp ?_
  rintro ⟨column, operand⟩ ⟨column', operand'⟩ ⟨⟨rfl, hoperand⟩, hmem⟩
  refine ⟨rfl, ?_⟩
  cases hoperand with
  | scalar => exact .scalar (.matched hmem)
  | list vs => exact .list vs

variable {P : String → Value → Value → Prop}
  (htime : ∀ column, P column (.text w.timestamp) (.text w.timestamp))
  (h : payload.Alike P payload')
include htime h

theorem stamp_alike (column : Option String) :
    (w.stamp column payload).Alike P (w.stamp column payload') := by
  unfold stamp
  cases w.stamped column with
  | none => exact h
  | some c => exact h.set (htime c)

omit htime in
theorem keepKnown_alike : (w.keepKnown payload).Alike P (w.keepKnown payload') :=
  h.filter fun _ _ _ _ => rfl

theorem prepareUpdate_alike : (w.prepareUpdate payload).Alike P (w.prepareUpdate payload') :=
  w.keepKnown_alike (w.stamp_alike htime h _)

theorem prepareInsert_alike
    (hgenerated : ∀ column v v', P column v v' → w.isGenerated column v = w.isGenerated column v') :
    (w.prepareInsert payload).Alike P (w.prepareInsert payload') := by
  have hstamped := w.stamp_alike htime (w.stamp_alike htime h w.createdColumn) w.updatedColumn
  refine (w.keepKnown_alike hstamped).filter fun column v v' hvv' => ?_
  rw [hgenerated column v v' hvv']

omit htime h

theorem insertPlan_alike (hcolumns : payload.columns = payload'.columns)
    (hgenerated : w.SameGenerated payload payload') :
    EndAlike (Sql.Statement.SentAlike (w.BoundAt payload payload' .empty .empty))
      (w.insertPlan payload) (w.insertPlan payload') := by
  have hentries : payload.Alike (fun column v v' => w.BoundAt payload payload' .empty .empty v v' ∧
      (w.schema.isAutoincrement column → v.isEmpty = v'.isEmpty)) payload' :=
    (entries_alike hcolumns).imp fun _ _ ⟨hcolumn, hmem⟩ =>
      ⟨hcolumn, .written hmem, hgenerated _ _ _ hmem⟩
  have hempty : ∀ column v v', (w.schema.isAutoincrement column → v.isEmpty = v'.isEmpty) →
      w.isGenerated column v = w.isGenerated column v' := by
    intro column v v' hvv'
    unfold isGenerated
    cases hauto : w.schema.isAutoincrement column with
    | true => rw [hvv' hauto]
    | false => rfl
  have hrow := w.prepareInsert_alike (fun _ => ⟨.time, fun _ => rfl⟩) hentries
    fun column v v' h => hempty column v v' h.2
  unfold insertPlan
  rw [hentries.isEmpty_eq]
  split_ifs
  · exact .error _
  · exact w.insertStatement_alike (fun _ _ _ h => h.1) hrow

theorem updatePlan_alike (hcolumns : payload.columns = payload'.columns)
    (hcriteria : criteria.SameShape criteria') :
    EndAlike
      (fun plan plan' => plan.1.SentAlike (w.BoundAt payload payload' criteria criteria') plan'.1 ∧
        plan.2.SentAlike (w.BoundAt payload payload' criteria criteria') plan'.2)
      (w.updatePlan payload criteria) (w.updatePlan payload' criteria') := by
  have hentries : payload.Alike (fun _ => w.BoundAt payload payload' criteria criteria') payload' :=
    (entries_alike hcolumns).imp fun _ _ ⟨hcolumn, hmem⟩ => ⟨hcolumn, .written hmem⟩
  have hrow := w.prepareUpdate_alike (fun _ => .time) hentries
  unfold updatePlan
  rw [hentries.isEmpty_eq]
  split_ifs
  · exact .error _
  · refine (w.filterExpr_alike (w.criteria_alike hcriteria payload payload')).bind fun f f' hf => ?_
    have hupdate := w.updateStatement_alike
      (P := fun _ => w.BoundAt payload payload' criteria criteria') (fun _ _ _ h => h) hrow hf
    exact hupdate.bind fun st st' hst => .ok ⟨w.countStatement_alike hf, hst⟩

theorem deletePlan_alike (hcriteria : criteria.SameShape criteria') :
    EndAlike
      (fun plan plan' => plan.1.SentAlike (w.BoundAt .empty .empty criteria criteria') plan'.1 ∧
        plan.2.SentAlike (w.BoundAt .empty .empty criteria criteria') plan'.2)
      (w.deletePlan criteria) (w.deletePlan criteria') :=
  (w.filterExpr_alike (w.criteria_alike hcriteria .empty .empty)).map fun _ _ hf =>
    ⟨w.countStatement_alike hf, w.deleteStatement_alike hf⟩

theorem deleteCalls_sameCalls (hcriteria : criteria.SameShape criteria') (s s' : Session σ) :
    SameCalls (w.BoundAt .empty .empty criteria criteria')
      ((w.recorded.deleteMatching criteria).callsIn s)
      ((w.recorded.deleteMatching criteria').callsIn s') := by
  have hsame : criteria.isEmpty = criteria'.isEmpty := by
    rw [Criteria.isEmpty, Criteria.isEmpty, Bool.eq_iff_iff, List.isEmpty_iff_length_eq_zero,
      List.isEmpty_iff_length_eq_zero, hcriteria.length_eq]
  obtain ⟨-, hcalls⟩ := (w.makes_deleteMatching criteria).callsIn s
  obtain ⟨-, hcalls'⟩ := (w.makes_deleteMatching criteria').callsIn s'
  cases hempty : criteria.isEmpty with
  | true =>
    -- Without criteria neither of the two makes a call.
    rw [hcalls.eq_nil_of_isEmpty hempty, hcalls'.eq_nil_of_isEmpty (hsame ▸ hempty)]
    exact fun _ => .nil
  | false =>
    exact (hcalls.of_not_isEmpty hempty).sameCalls (w.deletePlan_alike hcriteria)
      (fun hplan => Counted.sameCalls hplan.1 hplan.2) (hcalls'.of_not_isEmpty (hsame ▸ hempty))

/-- What a write sends depends on the values that are written in no other way than that they are
bound: two runs with the same columns and the same shape of criteria, in which the gateway gives the
same answers, send the same texts with the values from the same places. -/
theorem values_only_bound (w : Writer σ) (payload payload' : Row) (criteria criteria' : Criteria)
    (s s' : Session σ) (hcolumns : payload.columns = payload'.columns)
    (hcriteria : criteria.SameShape criteria') :
    (w.SameGenerated payload payload' →
      SameCalls (w.BoundAt payload payload' .empty .empty)
        ((w.recorded.insert payload).callsIn s) ((w.recorded.insert payload').callsIn s')) ∧
    SameCalls (w.BoundAt payload payload' criteria criteria')
      ((w.recorded.updateMatching payload criteria).callsIn s)
      ((w.recorded.updateMatching payload' criteria').callsIn s') ∧
    SameCalls (w.BoundAt .empty .empty criteria criteria')
      ((w.recorded.deleteMatching criteria).callsIn s)
      ((w.recorded.deleteMatching criteria').callsIn s') := by
  refine ⟨?_, ?_, w.deleteCalls_sameCalls hcriteria s s'⟩
  · intro hgenerated
    obtain ⟨-, hcalls⟩ := (w.makes_insert payload).callsIn s
    obtain ⟨-, hcalls'⟩ := (w.makes_insert payload').callsIn s'
    exact hcalls.sameCalls (w.insertPlan_alike hcolumns hgenerated) Inserted.sameCalls hcalls'
  · obtain ⟨-, hcalls⟩ := (w.makes_updateMatching payload criteria).callsIn s
    obtain ⟨-, hcalls'⟩ := (w.makes_updateMatching payload' criteria').callsIn s'
    exact hcalls.sameCalls (w.updatePlan_alike hcolumns hcriteria)
      (fun hplan => Counted.sameCalls hplan.1 hplan.2) hcalls'

/-- Users with a generated key and the time of the last change. -/
def stampedUsers : Writer Unit where
  gateway := .ofConnection {
    dialect := .postgres
    query := fun _ _ _ => (.ok [Row.empty.set countAlias (.int 2)], ())
    execute := fun _ _ _ => (.ok 2, ())
    lastKey := fun _ _ => (.ok (some (.int 7)), ()) }
  schema := ⟨"users", [(Column.ofType "id" "int").generated, .ofType "name" "text",
    .ofType "changed" "text"], "id"⟩
  updatedColumn := some "changed"
  timestamp := "noon"

theorem values_only_bound_stampedUsers :
    let plain : Row := { entries := [("id", .null), ("name", .null)] }
    let quoted : Row := { entries := [("id", .int 0), ("name", .text "x' -- ?")] }
    let criteria : Criteria :=
      { entries := [("id", .list [.int 1, .null]), ("name", .scalar .null)] }
    let criteria' : Criteria :=
      { entries := [("id", .list [.int 1, .null]), ("name", .scalar (.text "?"))] }
    List.Forall₂ (Call.SentAlike (stampedUsers.BoundAt plain quoted .empty .empty))
        [.execute ⟨"INSERT INTO users (name, changed) VALUES ($1, $2)", [.null, .text "noon"]⟩
            (.ok 2), .lastKey (some "users_id_seq") (.ok (some (.int 7)))]
        [.execute ⟨"INSERT INTO users (name, changed) VALUES ($1, $2)",
            [.text "x' -- ?", .text "noon"]⟩ (.ok 2),
          .lastKey (some "users_id_seq") (.ok (some (.int 7)))] ∧
      List.Forall₂ (Call.SentAlike (stampedUsers.BoundAt .empty .empty criteria criteria'))
        [.query ⟨"SELECT COUNT(*) AS num_of_matched_records FROM users "
            ++ "WHERE id IN (1, NULL) AND name = $1", [.null]⟩
            (.ok [Row.empty.set countAlias (.int 2)]),
          .execute ⟨"DELETE FROM users WHERE id IN (1, NULL) AND name = $1", [.null]⟩ (.ok 2)]
        [.query ⟨"SELECT COUNT(*) AS num_of_matched_records FROM users "
            ++ "WHERE id IN (1, NULL) AND name = $1", [.text "?"]⟩
            (.ok [Row.empty.set countAlias (.int 2)]),
          .execute ⟨"DELETE FROM users WHERE id IN (1, NULL) AND name = $1", [.text "?"]⟩
            (.ok 2)] := by
  intro plain quoted criteria criteria'
  have hshape : criteria.SameShape criteria' :=
    .cons ⟨rfl, .list _⟩ (.cons ⟨rfl, .scalar trivial⟩ .nil)
  have hgenerated : stampedUsers.SameGenerated plain quoted := by
    intro column v v' hmem hauto
    simp only [plain, quoted, List.zip_cons_cons, List.mem_cons, Prod.mk.injEq] at hmem
    rcases hmem with ⟨⟨rfl, rfl⟩, -, rfl⟩ | ⟨⟨rfl, rfl⟩, -, rfl⟩ | hmem
    · rfl
    · exact absurd hauto (by decide)
    · cases hmem
  obtain ⟨hinserts, -, hdeletions⟩ := stampedUsers.values_only_bound plain quoted criteria
    criteria' ⟨(), []⟩ ⟨(), []⟩ rfl hshape
  refine ⟨hinserts hgenerated ?_, hdeletions ?_⟩
  · exact answeredAlike_cons.mpr ⟨rfl, answeredAlike_cons.mpr ⟨rfl, by simp [AnsweredAlike]⟩⟩
  · exact answeredAlike_cons.mpr ⟨rfl, answeredAlike_cons.mpr ⟨rfl, by simp [AnsweredAlike]⟩⟩

end Writer

end TableAccess
