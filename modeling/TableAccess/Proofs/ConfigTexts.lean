import TableAccess.Config
import TableAccess.Proofs.PrintedRecords

/-!
# Configurations read back from their texts

A configuration is printed with all its fields, what is missing as null, and its text is read as
the configuration again. Null is also the text of the value null, so a column with null as its
default is read as a column without one, and nothing else is lost.
-/
namespace TableAccess
open Json

namespace Column
variable {c : Column}

/-- The column as its text is read: null is no default there. -/
def restored (c : Column) : Column := { c with default := c.default.filter (· ≠ .null) }

theorem restores_default {default : Option Value} (h : ∀ v ∈ default, v.IsExact) :
    Restores (Document.nullable? Value.ofDocument?) ((default.map Value.toJson).getD .null)
      (default.filter (· ≠ .null)) := by
  cases default with
  | none => exact restores_null
  | some v =>
    by_cases hv : v = .null
    · subst hv
      exact restores_null
    · have hkept : (some v).filter (· ≠ .null) = some v := by simp [hv]
      rw [hkept]
      refine (Value.restores_toJson (h v rfl)).nullable fun hnull => hv ?_
      exact (Option.some.inj hnull).symm

theorem restores_optionalNumber (n : Option UInt32) :
    Restores (Document.nullable? Document.uint32?) (optionalNumber n) n := by
  cases n with
  | none => exact restores_null
  | some n => exact (restores_uint32 n).nullable (by simp [Document.uint32?])

/-- A column is read back from its text. -/
theorem restores_toJson (h : ∀ v ∈ c.default, v.IsExact) :
    Restores ofDocument? c.toJson c.restored := by
  obtain ⟨name, hname, hreadName⟩ := restores_string c.name
  obtain ⟨type, htype, hreadType⟩ := restores_string c.type
  obtain ⟨size, hsize, hreadSize⟩ := restores_optionalNumber c.size
  obtain ⟨scale, hscale, hreadScale⟩ := restores_optionalNumber c.scale
  obtain ⟨notNull, hnotNull, hreadNotNull⟩ := restores_bool c.notNull
  obtain ⟨default, hdefault, hreadDefault⟩ := restores_default h
  obtain ⟨autoincrement, hautoincrement, hreadAutoincrement⟩ := restores_bool c.autoincrement
  obtain ⟨primary, hprimary, hreadPrimary⟩ := restores_bool c.primary
  have hnodup : fieldNames.Nodup := by decide
  obtain ⟨d, hd, hfields⟩ := exists_reads_record hnodup rfl
    (.cons hname <| .cons htype <| .cons hsize <| .cons hscale <| .cons hnotNull <|
      .cons hdefault <| .cons hautoincrement <| .cons hprimary .nil)
  refine ⟨d, hd, ?_⟩
  rw [ofDocument?, hfields]
  simp [Document.orElse?, hreadName, hreadType, hreadSize, hreadScale, hreadNotNull, hreadDefault,
    hreadAutoincrement, hreadPrimary, restored]

end Column

theorem Column.restored_eq_self {c : Column} : c.restored = c ↔ c.default ≠ some .null := by
  have hdefault : c.restored = c ↔ c.default.filter (· ≠ .null) = c.default := by
    cases c
    simp [restored]
  rw [hdefault]
  cases c.default with
  | none => simp
  | some v => simp [Option.filter]

namespace Config
variable {c : Config}

/-- The configuration as its text is read. -/
def restored (c : Config) : Config := { c with columns := c.columns.map (·.map Column.restored) }

/-- No default of a column is a floating-point number. -/
def HasExactDefaults (c : Config) : Prop :=
  ∀ columns ∈ c.columns, ∀ column ∈ columns, ∀ v ∈ column.default, v.IsExact

/-- A column has null as its default, which is not the same as none. -/
def HasNullDefault (c : Config) : Prop :=
  ∃ columns ∈ c.columns, ∃ column ∈ columns, column.default = some .null

theorem restores_optionalText (s : Option String) :
    Restores (Document.nullable? Document.text?) (optionalText s) s := by
  cases s with
  | none => exact restores_null
  | some s => exact (restores_string s).nullable (by simp [Document.text?])

theorem restores_columns {columns : Option (List Column)}
    (h : ∀ cs ∈ columns, ∀ column ∈ cs, ∀ v ∈ column.default, v.IsExact) :
    Restores (Document.nullable? (Document.list? Column.ofDocument?))
      ((columns.map fun cs => Json.array (cs.map Column.toJson)).getD .null)
      (columns.map (·.map Column.restored)) := by
  cases columns with
  | none => exact restores_null
  | some cs =>
    refine (Restores.list ?_).nullable (by simp [Document.list?])
    rw [List.forall₂_map_left_iff, List.forall₂_map_right_iff]
    exact List.forall₂_same.mpr fun column hcolumn =>
      Column.restores_toJson (h cs rfl column hcolumn)

/-- A configuration is read back from its text. -/
theorem restores_toJson (h : c.HasExactDefaults) :
    Restores ofDocument? c.toJson c.restored := by
  obtain ⟨table, htable, hreadTable⟩ := restores_string c.tableName
  obtain ⟨primary, hprimary, hreadPrimary⟩ := restores_string c.primaryColumn
  obtain ⟨created, hcreated, hreadCreated⟩ := restores_optionalText c.createdColumn
  obtain ⟨updated, hupdated, hreadUpdated⟩ := restores_optionalText c.updatedColumn
  obtain ⟨columns, hcolumns, hreadColumns⟩ := restores_columns h
  have hnodup : fieldNames.Nodup := by decide
  obtain ⟨d, hd, hfields⟩ := exists_reads_record hnodup rfl
    (.cons htable <| .cons hprimary <| .cons hcreated <| .cons hupdated <| .cons hcolumns .nil)
  refine ⟨d, hd, ?_⟩
  rw [ofDocument?, hfields]
  simp [Document.orElse?, hreadTable, hreadPrimary, hreadCreated, hreadUpdated, hreadColumns,
    restored]

theorem restored_eq_self : c.restored = c ↔ ¬ c.HasNullDefault := by
  have hcolumns : c.restored = c ↔ c.columns.map (·.map Column.restored) = c.columns := by
    cases c
    simp [restored]
  rw [hcolumns, HasNullDefault]
  cases c.columns with
  | none => simp
  | some columns =>
    have hmap : columns.map Column.restored = columns ↔
        ∀ column ∈ columns, column.restored = column := by
      simpa using List.map_inj_left (f := Column.restored) (g := id) (l := columns)
    simp [hmap, Column.restored_eq_self]

theorem parse_toJson (h : c.HasExactDefaults) : parse c.toJson.compress = .ok c.restored := by
  rw [parse, (restores_toJson h).bind_read?]

/-- A configuration is read back from its text as it was but for defaults of null, which are read
as none: so it is the same one exactly if there are none of them. -/
theorem configurations_survive_text (c : Config) (h : c.HasExactDefaults) :
    parse c.toJson.compress = .ok c.restored ∧
      (parse c.toJson.compress = .ok c ↔ ¬ c.HasNullDefault) := by
  refine ⟨parse_toJson h, ?_⟩
  rw [parse_toJson h, Except.ok.injEq, restored_eq_self]

/-- A configuration with all that a document can hold, and awkward texts. -/
def fullPosts : Config :=
  ((ofTable "po\"sts\n" "").withCreatedColumn "created").withColumns
    [((Column.ofType "id" "bigint").withDefault (.int (-1))).asPrimary.generated,
      ((Column.ofType "ti\\tle" "varchar").withSize 4294967295).withDefault (.text "null"),
      (((Column.ofType "" "numeric").withScale 0).required).withDefault (.bool false)]

theorem configurations_survive_text_posts :
    fullPosts.HasExactDefaults ∧ ¬ fullPosts.HasNullDefault ∧
      parse fullPosts.toJson.compress = .ok fullPosts := by
  have hexact : fullPosts.HasExactDefaults := by
    simp [HasExactDefaults, fullPosts, withColumns, Column.withDefault, Column.asPrimary,
      Column.generated, Column.withSize, Column.withScale, Column.required, Value.IsExact]
  have hnull : ¬ fullPosts.HasNullDefault := by
    simp [HasNullDefault, fullPosts, withColumns, Column.withDefault, Column.asPrimary,
      Column.generated, Column.withSize, Column.withScale, Column.required]
  exact ⟨hexact, hnull, (configurations_survive_text fullPosts hexact).2.mpr hnull⟩

/-- A column with null as its default is read as one without a default. -/
theorem null_default_lost :
    let column := Column.ofType "name" "varchar"
    let c := (ofTable "users" "id").withColumns [column.withDefault .null]
    c.HasExactDefaults ∧
      parse c.toJson.compress = .ok ((ofTable "users" "id").withColumns [column]) ∧
      parse c.toJson.compress ≠ .ok c := by
  intro column c
  have hexact : c.HasExactDefaults := by
    simp [HasExactDefaults, c, withColumns, Column.withDefault, Value.IsExact]
  have hrestored : c.restored = (ofTable "users" "id").withColumns [column] := by decide
  have hchanged : c.restored ≠ c := by decide
  rw [parse_toJson hexact, hrestored]
  rw [hrestored] at hchanged
  exact ⟨hexact, rfl, fun h => hchanged (Except.ok.inj h)⟩

end Config

end TableAccess
