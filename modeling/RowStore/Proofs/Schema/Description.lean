import RowStore.Proofs.Checks
import RowStore.Schema.Description

/-!
# Descriptions of columns

What a schema takes from the description of a column: its name, whether it may be null, and its
declared type whatever the case of the letters is.
-/

namespace RowStore

def lowered (cs : List Char) : List Char := cs.map Char.toLower

theorem lowered_append (cs ds : List Char) : lowered (cs ++ ds) = lowered cs ++ lowered ds :=
  List.map_append

theorem lowered_cons (c : Char) (cs : List Char) : lowered (c :: cs) = c.toLower :: lowered cs :=
  rfl

theorem kind?_eq_of_lowered {d e : ColumnDescription}
    (h : lowered d.declared.toList = lowered e.declared.toList) : d.kind? = e.kind? := by
  unfold ColumnDescription.kind?
  simp only [lowered] at h
  rw [h]

theorem toField_eq_ok {d : ColumnDescription} {f : SchemaField} :
    d.toField = .ok f ↔ ∃ kind, d.kind? = some kind ∧
      f = ⟨ColumnName.toField d.column, kind, none, !d.isNullable⟩ := by
  unfold ColumnDescription.toField
  cases d.kind? with
  | none => simp
  | some kind => simp [eq_comm]

theorem ofDescription_eq_ok {table : String} {columns : List ColumnDescription} {s : Schema} :
    Schema.ofDescription table columns = .ok s ↔
      s.table = table ∧ List.Forall₂ (fun d f => d.toField = .ok f) columns s.fields := by
  rw [Schema.ofDescription, Checks.bind_eq_ok]
  simp only [Checks.mapM_eq_ok, Checks.pure_eq_ok]
  constructor
  · rintro ⟨fields, hfields, rfl⟩
    exact ⟨rfl, hfields⟩
  · rintro ⟨rfl, hfields⟩
    exact ⟨s.fields, hfields, rfl⟩

end RowStore
