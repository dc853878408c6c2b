import Mathlib.Data.List.Basic
import RowStore.Record
import RowStore.Sql.Literal

/-!
# Building records

Fields with different names make a record of just these fields. Of fields with the same name only
the place of the first one and the value of the last one are left.
-/

namespace RowStore

/-! ## Look-ups -/

theorem lookup_cons_eq_ite {α : Type} (name : String) (value : α) (rest : List (String × α))
    (other : String) :
    ((name, value) :: rest).lookup other =
      if other = name then some value else rest.lookup other := by
  rw [List.lookup_cons]
  by_cases h : other = name
  · simp [h]
  · rw [beq_false_of_ne h, if_neg h]

theorem lookup_eq_some_iff_mem {α : Type} {fields : List (String × α)}
    (h : (fields.map (·.1)).Nodup) (name : String) (value : α) :
    fields.lookup name = some value ↔ (name, value) ∈ fields := by
  induction fields with
  | nil => simp
  | cons field rest ih =>
    obtain ⟨other, v⟩ := field
    rw [List.map_cons, List.nodup_cons] at h
    rw [lookup_cons_eq_ite, List.mem_cons, Prod.mk.injEq]
    by_cases here : name = other
    · subst here
      have hnot : (name, value) ∉ rest := fun hmem => h.1 (List.mem_map.mpr ⟨_, hmem, rfl⟩)
      simp [hnot, eq_comm]
    · simp [here, ih h.2]

theorem lookup_eq_none_of_notMem {α : Type} {fields : List (String × α)} {name : String}
    (h : name ∉ fields.map (·.1)) : fields.lookup name = none := by
  rw [List.lookup_eq_none_iff]
  intro field mem
  rw [bne_iff_ne]
  rintro rfl
  exact h (List.mem_map_of_mem mem)

namespace Record

theorem put_of_notMem (name : String) (value : Value) (fields : List (String × Value))
    (h : name ∉ fields.map (·.1)) : put name value fields = fields ++ [(name, value)] := by
  induction fields with
  | nil => rfl
  | cons f rest ih =>
    obtain ⟨k, v⟩ := f
    rw [List.map_cons, List.mem_cons, not_or] at h
    have hne : k ≠ name := fun he => h.1 he.symm
    rw [put, if_neg hne, ih h.2, List.cons_append]

theorem names_insert (r : Record) (name : String) (value : Value) :
    (r.insert name value).names = if name ∈ r.names then r.names else r.names ++ [name] :=
  names_put name value r.fields

theorem mem_names_insert (r : Record) (name : String) (value : Value) (other : String) :
    other ∈ (r.insert name value).names ↔ other ∈ r.names ∨ other = name := by
  rw [names_insert]
  split
  case isTrue hname =>
    refine (or_iff_left_of_imp ?_).symm
    rintro rfl
    exact hname
  case isFalse => rw [List.mem_append, List.mem_singleton]

theorem fields_insert_of_notMem (r : Record) (name : String) (value : Value)
    (h : name ∉ r.names) : (r.insert name value).fields = r.fields ++ [(name, value)] :=
  put_of_notMem name value r.fields h

theorem lookup_put (name : String) (value : Value) (fields : List (String × Value))
    (other : String) :
    (put name value fields).lookup other =
      if other = name then some value else fields.lookup other := by
  induction fields with
  | nil => rw [put, lookup_cons_eq_ite]
  | cons f rest ih =>
    obtain ⟨k, v⟩ := f
    unfold put
    by_cases hk : k = name
    · subst hk
      rw [if_pos rfl, lookup_cons_eq_ite, lookup_cons_eq_ite]
      by_cases h : other = k <;> simp [h]
    · rw [if_neg hk, lookup_cons_eq_ite, lookup_cons_eq_ite, ih]
      by_cases h : other = k
      · subst h
        simp [hk]
      · simp [h]

theorem get?_insert (r : Record) (name : String) (value : Value) (other : String) :
    (r.insert name value).get? other = if other = name then some value else r.get? other :=
  lookup_put name value r.fields other

theorem lookup_filter_ne (name : String) (fields : List (String × Value)) (other : String) :
    (fields.filter (·.1 != name)).lookup other =
      if other = name then none else fields.lookup other := by
  induction fields with
  | nil => simp
  | cons f rest ih =>
    obtain ⟨k, v⟩ := f
    rw [List.filter_cons, lookup_cons_eq_ite]
    by_cases hk : k = name
    · subst hk
      rw [if_neg (by simp), ih]
      by_cases h : other = k <;> simp [h]
    · rw [if_pos (by simpa using hk), lookup_cons_eq_ite, ih]
      by_cases h : other = k
      · subst h
        simp [hk]
      · simp [h]

theorem get?_erase (r : Record) (name other : String) :
    (r.erase name).get? other = if other = name then none else r.get? other :=
  lookup_filter_ne name r.fields other

theorem names_erase (r : Record) (name : String) :
    (r.erase name).names = r.names.filter (· != name) := by
  unfold names erase
  rw [List.filter_map]
  rfl

/-! ## Lists of fields -/

theorem foldl_insert_fields (r : Record) (fields : List (String × Value))
    (h : (r.names ++ fields.map (·.1)).Nodup) :
    (fields.foldl (fun r (k, v) => r.insert k v) r).fields = r.fields ++ fields := by
  induction fields generalizing r with
  | nil => simp
  | cons f rest ih =>
    obtain ⟨k, v⟩ := f
    rw [List.map_cons] at h
    have hk : k ∉ r.names := by
      intro hmem
      exact (List.nodup_append.mp h).2.2 k hmem k List.mem_cons_self rfl
    have hnames : (r.insert k v).names = r.names ++ [k] := by
      rw [names_insert, if_neg hk]
    rw [List.foldl_cons, ih, fields_insert_of_notMem r k v hk, List.append_assoc,
      List.singleton_append]
    rwa [hnames, List.append_assoc, List.singleton_append]

theorem fields_ofList (fields : List (String × Value)) (h : (fields.map (·.1)).Nodup) :
    (ofList fields).fields = fields := by
  rw [ofList, foldl_insert_fields _ _ (by simpa [names, empty] using h)]
  rfl

theorem foldl_insert_names (r : Record) (fields : List (String × Value)) :
    (fields.foldl (fun r (k, v) => r.insert k v) r).names.Sublist
      (r.names ++ fields.map (·.1)) := by
  induction fields generalizing r with
  | nil => simp
  | cons f rest ih =>
    obtain ⟨k, v⟩ := f
    have hstep : (r.insert k v).names.Sublist (r.names ++ [k]) := by
      rw [names_insert]
      split
      · exact List.sublist_append_left _ _
      · exact List.Sublist.refl _
    have hrest := (ih (r.insert k v)).trans (hstep.append_right (rest.map (·.1)))
    rwa [List.append_assoc, List.singleton_append] at hrest

theorem names_ofList_sublist (fields : List (String × Value)) :
    (ofList fields).names.Sublist (fields.map (·.1)) := foldl_insert_names empty fields

theorem mem_names_foldl_insert (r : Record) (fields : List (String × Value)) (name : String) :
    name ∈ (fields.foldl (fun r (k, v) => r.insert k v) r).names ↔
      name ∈ r.names ∨ name ∈ fields.map (·.1) := by
  induction fields generalizing r with
  | nil => simp
  | cons f rest ih =>
    obtain ⟨k, v⟩ := f
    rw [List.foldl_cons, ih, mem_names_insert, List.map_cons, List.mem_cons, or_assoc]

theorem mem_names_ofList (fields : List (String × Value)) (name : String) :
    name ∈ (ofList fields).names ↔ name ∈ fields.map (·.1) :=
  (mem_names_foldl_insert empty fields name).trans (or_iff_right List.not_mem_nil)

/-! ## Structured values -/

theorem lookup_renamed {α β : Type} (f : String → String) (g : α → β)
    (fields : List (String × α)) (name : String)
    (apart : ∀ other ∈ fields.map (·.1), f name = f other → name = other) :
    (fields.map (Prod.map f g)).lookup (f name) = (fields.lookup name).map g := by
  induction fields with
  | nil => rfl
  | cons field rest ih =>
    obtain ⟨other, value⟩ := field
    obtain ⟨first, others⟩ := List.forall_mem_cons.mp apart
    rw [List.map_cons, Prod.map_apply, lookup_cons_eq_ite, lookup_cons_eq_ite, ih others]
    by_cases here : name = other
    · simp [here]
    · have here' : f name ≠ f other := fun h => here (first h)
      simp [here, here']

theorem names_stringify (r : Record) : r.stringify.names = r.names := by
  simp [stringify, mapValues, names, Function.comp_def]

theorem get?_stringify (r : Record) (name : String) :
    r.stringify.get? name = (r.get? name).map Value.stringify :=
  lookup_renamed id Value.stringify r.fields name fun _ _ => id

end Record

namespace Value

theorem isStructured_stringify (v : Value) : v.stringify.isStructured = false := by
  cases v with
  | json j => cases j <;> rfl
  | null | int | float | bool | text | timestamp | blob => rfl

theorem stringify_stringify (v : Value) : v.stringify.stringify = v.stringify := by
  cases v with
  | json j => cases j <;> rfl
  | null | int | float | bool | text | timestamp | blob => rfl

theorem literal_stringify (v : Value) : v.stringify.literal = v.literal := by
  cases v with
  | json j => cases j <;> rfl
  | null | int | float | bool | text | timestamp | blob => rfl

end Value

end RowStore
