import RowStore.Proofs.ColumnName
import RowStore.Proofs.Schema.Definition
import RowStore.Proofs.Schema.Description

/-!
# Schemas there and back

The definition made for a schema holds one column for each field, and the schema read from the
description of these columns has a field for each of them.
-/

namespace RowStore

open Sql (ColumnDefinition DefinedColumn isLetters)

namespace SchemaField

def declaredType (f : SchemaField) : DeclaredType :=
  match f.kind with
  | .string | .array | .object => ⟨"LONGTEXT", none⟩
  | .integer => ⟨"INT", some 11⟩
  | .number =>
    if f.format = some "int32" ∨ f.format = some "unixTimestamp" then ⟨"INT", some 11⟩
    else ⟨"FLOAT", some 11⟩
  | .boolean => ⟨"TINYINT", some 1⟩
  | .binary => ⟨"LONGBLOB", none⟩
  | .null => ⟨"VARCHAR", some 255⟩

/-- The kind that is left of a field's kind in its column. -/
def columnKind (f : SchemaField) : FieldKind :=
  match f.kind with
  | .string | .array | .object | .null => .string
  | .integer => .integer
  | .number =>
    if f.format = some "int32" ∨ f.format = some "unixTimestamp" then .integer else .number
  | .boolean => .boolean
  | .binary => .binary

theorem declaredType_spec (f : SchemaField) :
    f.declaredType.text = f.columnType ∧ isLetters f.declaredType.base.toList = true ∧
      ColumnDescription.kind? ⟨"", f.declaredType.text, ""⟩ = some f.columnKind := by
  unfold declaredType columnType columnKind
  cases f.kind with
  | number =>
    dsimp only
    split <;> exact ⟨rfl, rfl, rfl⟩
  | _ =>
    dsimp only
    exact ⟨rfl, rfl, rfl⟩

/-- The column of a field. The key has a type of its own. -/
def definedColumn (f : SchemaField) : DefinedColumn :=
  if f.name = "id" then ⟨"id", ⟨"VARCHAR", some 255⟩, false⟩
  else ⟨ColumnName.ofField f.name, f.declaredType, true⟩

def describedKind (f : SchemaField) : FieldKind :=
  if f.name = "id" then .string else f.columnKind

def describedField (f : SchemaField) : SchemaField :=
  ⟨ColumnName.toField (ColumnName.ofField f.name), f.describedKind, none, f.name = "id"⟩

theorem says_of_columnDefinition {f : SchemaField} {d : ColumnDefinition}
    (h : f.columnDefinition = .ok d) : d.Says f.definedColumn := by
  unfold columnDefinition at h
  unfold definedColumn
  split at h
  · rename_i hid
    obtain rfl := Except.ok.inj h
    rw [if_pos hid]
    exact .id
  · rename_i hid
    obtain ⟨column, hcolumn, hd⟩ := Checks.bind_eq_ok.mp h
    obtain rfl := Checks.pure_eq_ok.mp hd
    obtain ⟨-, -, rfl⟩ := (ColumnName.ofField?_eq_ok_iff f.name column).mp hcolumn
    obtain ⟨htext, hletters, -⟩ := f.declaredType_spec
    rw [if_neg hid, ← htext]
    exact .nullable _ _ hletters

end SchemaField

namespace Schema

/-- The fields, and the key before them where it is not among them. -/
def withId (s : Schema) : List SchemaField :=
  if "id" ∈ s.fields.map SchemaField.name then s.fields
  else ⟨"id", .string, none, true⟩ :: s.fields

theorem isSome_field?_iff (s : Schema) (name : String) :
    (s.field? name).isSome = true ↔ name ∈ s.fields.map SchemaField.name := by
  simp [field?, List.find?_isSome]

theorem toDefinition_eq_ok {s : Schema} {options : TableOptions} {t : Sql.CreateTable}
    (h : s.toDefinition options = .ok t) :
    t.table = s.table ∧ t.engine = options.engine ∧ isEngineName t.engine = true ∧
      List.Forall₂ ColumnDefinition.Says t.columns (s.withId.map SchemaField.definedColumn) := by
  unfold toDefinition at h
  dsimp only at h
  split at h
  · obtain ⟨_, hthrow, -⟩ := Checks.bind_eq_ok.mp h
    exact absurd hthrow Checks.throw_ne_ok
  split at h
  · obtain ⟨_, hthrow, -⟩ := Checks.bind_eq_ok.mp h
    exact absurd hthrow Checks.throw_ne_ok
  rename_i hengine
  obtain ⟨columns, hcolumns, ht⟩ := Checks.bind_eq_ok.mp h
  obtain rfl := Checks.pure_eq_ok.mp ht
  have hsays : List.Forall₂ ColumnDefinition.Says columns
      (s.fields.map SchemaField.definedColumn) := by
    have hmade := Checks.mapM_eq_ok.mp hcolumns
    rw [List.forall₂_map_right_iff]
    exact (hmade.imp fun _ _ hd => SchemaField.says_of_columnDefinition hd).flip
  refine ⟨rfl, rfl, by simpa using hengine, ?_⟩
  unfold withId
  by_cases hid : "id" ∈ s.fields.map SchemaField.name
  · rw [if_pos hid, if_pos ((s.isSome_field?_iff "id").mpr hid)]
    exact hsays
  · rw [if_neg hid, if_neg (mt (s.isSome_field?_iff "id").mp hid)]
    exact .cons .id hsays

end Schema

/-! ## The description of a table -/

/-- A column as a server describes it, the letters of its type in any case. -/
structure Describes (c : DefinedColumn) (d : ColumnDescription) : Prop where
  column : d.column = c.name
  declared : lowered d.declared.toList = lowered c.declared.text.toList
  nullable : d.nullable = if c.nullable then "YES" else "NO"

theorem Describes.kind? {f : SchemaField} {d : ColumnDescription}
    (h : Describes f.definedColumn d) : d.kind? = some f.describedKind := by
  rw [kind?_eq_of_lowered (e := ⟨"", f.definedColumn.declared.text, ""⟩) h.declared]
  unfold SchemaField.definedColumn SchemaField.describedKind
  split
  · rfl
  · exact f.declaredType_spec.2.2

theorem Describes.isNullable {f : SchemaField} {d : ColumnDescription}
    (h : Describes f.definedColumn d) : d.isNullable = !decide (f.name = "id") := by
  by_cases hid : f.name = "id"
  · have hno : d.nullable = "NO" := by
      rw [h.nullable, SchemaField.definedColumn, if_pos hid]
      rfl
    rw [ColumnDescription.isNullable, hno, decide_eq_true hid]
    rfl
  · have hyes : d.nullable = "YES" := by
      rw [h.nullable, SchemaField.definedColumn, if_neg hid]
      rfl
    rw [ColumnDescription.isNullable, hyes, decide_eq_false hid]
    rfl

theorem Describes.toField {f : SchemaField} {d : ColumnDescription}
    (h : Describes f.definedColumn d) : d.toField = .ok f.describedField := by
  have hcolumn : d.column = ColumnName.ofField f.name := by
    rw [h.column, SchemaField.definedColumn]
    split
    · rename_i hid
      rw [hid]
      rfl
    · rfl
  rw [toField_eq_ok]
  refine ⟨f.describedKind, h.kind?, ?_⟩
  rw [SchemaField.describedField, h.isNullable, hcolumn, Bool.not_not]

namespace Schema

/-- A definition reads back as the columns of the fields, whatever the names hold, and a schema is
read from every description of these columns. -/
theorem definition_roundTrip {s : Schema} {options : TableOptions} {t : Sql.CreateTable}
    (h : s.toDefinition options = .ok t) :
    Sql.readDefinition t.text = some ⟨Sql.pathNames s.table,
      s.withId.map SchemaField.definedColumn, "id", options.engine⟩ ∧
    ∀ table ds, List.Forall₂ Describes (s.withId.map SchemaField.definedColumn) ds →
      ofDescription table ds = .ok ⟨table, s.withId.map SchemaField.describedField⟩ := by
  obtain ⟨htable, hoptions, hengine, hsays⟩ := toDefinition_eq_ok h
  constructor
  · rw [Sql.readDefinition_text hsays hengine, htable, hoptions]
  · intro table ds hds
    rw [List.forall₂_map_left_iff] at hds
    rw [ofDescription_eq_ok, List.forall₂_map_right_iff]
    exact ⟨rfl, (hds.imp fun _ _ hd => hd.toField).flip⟩

theorem definition_roundTrip_hostileNames :
    ∃ t, toDefinition ⟨"shop.it`ems", [⟨"a`,\n(b)", .boolean, none, false⟩,
        ⟨"id", .object, none, false⟩, ⟨"address.city", .number, some "unixTimestamp", true⟩]⟩
          .standard = .ok t ∧
      t.text = "CREATE TABLE `shop`.`it``ems` (\n`a``,\n(b)` TINYINT(1) DEFAULT NULL,\n" ++
        "id VARCHAR(255) NOT NULL,\n`address_dot_city` INT(11) DEFAULT NULL,\n" ++
        "PRIMARY KEY (id)\n) ENGINE=InnoDB" ∧
      Sql.readDefinition t.text = some ⟨["shop", "it`ems"],
        [⟨"a`,\n(b)", ⟨"TINYINT", some 1⟩, true⟩, ⟨"id", ⟨"VARCHAR", some 255⟩, false⟩,
          ⟨"address_dot_city", ⟨"INT", some 11⟩, true⟩], "id", "InnoDB"⟩ ∧
      ofDescription "items" [⟨"a`,\n(b)", "TinyInt(1)", "YES"⟩, ⟨"id", "varchar(255)", "NO"⟩,
        ⟨"address_dot_city", "INT(11)", "YES"⟩] =
          .ok ⟨"items", [⟨"a`,\n(b)", .boolean, none, false⟩, ⟨"id", .string, none, true⟩,
            ⟨"address.city", .integer, none, false⟩]⟩ := by
  have hdefinition : toDefinition ⟨"shop.it`ems", [⟨"a`,\n(b)", .boolean, none, false⟩,
      ⟨"id", .object, none, false⟩, ⟨"address.city", .number, some "unixTimestamp", true⟩]⟩
        .standard = .ok ⟨"shop.it`ems", [.nullable "a`,\n(b)" "TINYINT(1)", .id,
          .nullable "address_dot_city" "INT(11)"], "InnoDB"⟩ := rfl
  obtain ⟨hread, hdescribed⟩ := definition_roundTrip hdefinition
  refine ⟨_, hdefinition, by decide +kernel, hread, hdescribed "items" _ ?_⟩
  exact .cons ⟨rfl, by decide, rfl⟩ (.cons ⟨rfl, by decide, rfl⟩ (.cons ⟨rfl, by decide, rfl⟩ .nil))

end Schema

end RowStore
