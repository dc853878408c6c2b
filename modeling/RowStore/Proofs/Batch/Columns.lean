import Mathlib.Data.List.Basic
import RowStore.Batch.Plan

/-!
# The columns of a batch

The fields of a batch are the names of its rows in the order in which they first occur. A
statement lists those of them that its own rows have.
-/

namespace RowStore.Batch

/-! ## Collecting names -/

theorem addNames_nil (found : List String) : addNames found [] = found := rfl

theorem addNames_cons (found : List String) (name : String) (names : List String) :
    addNames found (name :: names) =
      addNames (if found.contains name then found else found ++ [name]) names := rfl

theorem addNames_append (found names more : List String) :
    addNames found (names ++ more) = addNames (addNames found names) more := by
  rw [addNames, addNames, addNames, List.foldl_append]

theorem addNames_eq (found names : List String) :
    addNames found names = found ++ (names.removeAll found).eraseDups := by
  induction names generalizing found with
  | nil => simp [addNames_nil]
  | cons name names ih =>
    rw [addNames_cons, List.cons_removeAll, ih]
    by_cases h : name ∈ found
    · simp [h]
    · have hrest : names.removeAll (found ++ [name]) =
          (names.removeAll found).filter fun other => !other == name := by
        simp only [List.removeAll, List.filter_filter]
        refine List.filter_congr fun other _ => ?_
        by_cases hother : other = name <;> simp [hother]
      simp [h, hrest, List.eraseDups_cons]

theorem nodup_addNames (found names : List String) (h : found.Nodup) :
    (addNames found names).Nodup := by
  induction names generalizing found with
  | nil => exact h
  | cons name names ih =>
    rw [addNames_cons]
    refine ih _ ?_
    split
    · exact h
    · rename_i hnew
      rw [List.contains_eq_mem, decide_eq_true_eq] at hnew
      rw [List.nodup_append]
      refine ⟨h, by simp, ?_⟩
      rintro a ha b hb rfl
      rw [List.mem_singleton] at hb
      exact hnew (hb ▸ ha)

/-! ## The fields of all rows -/

theorem foldl_addNames (found : List String) (rows : List Record) :
    rows.foldl (fun found r => addNames found r.names) found =
      addNames found (rows.flatMap Record.names) := by
  induction rows generalizing found with
  | nil => rfl
  | cons r rows ih => rw [List.foldl_cons, ih, List.flatMap_cons, addNames_append]

theorem fieldUnion_eq (rows : List Record) :
    fieldUnion rows = (rows.flatMap Record.names).eraseDups := by
  rw [fieldUnion, foldl_addNames, addNames_eq]
  simp [List.removeAll]

theorem nodup_fieldUnion (rows : List Record) : (fieldUnion rows).Nodup := by
  rw [fieldUnion, foldl_addNames]
  exact nodup_addNames [] _ List.nodup_nil

theorem mem_fieldUnion {rows : List Record} {name : String} :
    name ∈ fieldUnion rows ↔ ∃ r ∈ rows, name ∈ r.names := by
  rw [fieldUnion_eq, List.mem_eraseDups, List.mem_flatMap]

theorem eraseDups_of_nodup (names : List String) (h : names.Nodup) : names.eraseDups = names := by
  induction names with
  | nil => rfl
  | cons name names ih =>
    obtain ⟨hname, hnames⟩ := List.nodup_cons.mp h
    have hfilter : (names.filter fun other => !other == name) = names := by
      rw [List.filter_eq_self]
      intro other hother
      simp only [Bool.not_eq_true', beq_eq_false_iff_ne]
      rintro rfl
      exact hname hother
    rw [List.eraseDups_cons, hfilter, ih hnames]

theorem fieldUnion_of_same (names : List String) (h : names.Nodup) (rows : List Record)
    (hne : rows ≠ []) (hrows : ∀ r ∈ rows, r.names = names) : fieldUnion rows = names := by
  obtain ⟨r, rows, rfl⟩ := List.exists_cons_of_ne_nil hne
  have hnone : (rows.flatMap Record.names).removeAll names = [] := by
    rw [List.removeAll, List.filter_eq_nil_iff]
    intro name hname
    obtain ⟨s, hs, hname⟩ := List.mem_flatMap.mp hname
    rw [hrows s (List.mem_cons_of_mem _ hs)] at hname
    simpa using hname
  rw [fieldUnion_eq, List.flatMap_cons, hrows r List.mem_cons_self, List.eraseDups_append, hnone,
    eraseDups_of_nodup names h, List.eraseDups_nil, List.append_nil]

/-! ## The fields of some rows -/

theorem fieldsWithin_eq (names : List String) (rows : List Record) :
    fieldsWithin names rows =
      names.filter fun name => rows.any fun r => r.names.contains name := by
  unfold fieldsWithin
  refine List.filter_congr fun name _ => ?_
  rw [Bool.eq_iff_iff, List.contains_eq_mem, decide_eq_true_eq, mem_fieldUnion]
  simp

theorem fieldsWithin_sublist (names : List String) (rows : List Record) :
    (fieldsWithin names rows).Sublist names := List.filter_sublist

theorem fieldsWithin_eq_of_length {names : List String} {rows : List Record}
    (h : (fieldsWithin names rows).length = names.length) : fieldsWithin names rows = names :=
  (fieldsWithin_sublist names rows).eq_of_length h

theorem fieldsWithin_fieldUnion (rows : List Record) :
    fieldsWithin (fieldUnion rows) rows = fieldUnion rows := by
  unfold fieldsWithin
  rw [List.filter_eq_self]
  simp

end RowStore.Batch
