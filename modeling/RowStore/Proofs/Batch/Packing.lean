import Mathlib
import RowStore.Batch.Plan

/-!
# Packing rows into chunks

The chunks hold all rows in their order. No chunk is empty, and one of several rows keeps its
rows, with the separators between them, within the threshold.
-/

namespace RowStore.Batch

theorem separator_size : separator.utf8ByteSize = 2 := rfl

/-- The bytes of a chunk, the separators between its rows included. -/
def packedSize {α : Type} (bytes : α → Nat) (chunk : List α) : Nat :=
  (chunk.map bytes).sum + separator.utf8ByteSize * (chunk.length - 1)

variable {α : Type} {bytes : α → Nat}

theorem packedSize_singleton (x : α) : packedSize bytes [x] = bytes x := by simp [packedSize]

theorem packedSize_cons (x : α) (chunk : List α) (h : chunk ≠ []) :
    packedSize bytes (x :: chunk) =
      packedSize bytes chunk + bytes x + separator.utf8ByteSize := by
  have hlength : 0 < chunk.length := List.length_pos_iff.mpr h
  simp only [packedSize, List.map_cons, List.sum_cons, List.length_cons, separator_size]
  omega

theorem packedSize_reverse (chunk : List α) :
    packedSize bytes chunk.reverse = packedSize bytes chunk := by
  rw [packedSize, packedSize, List.map_reverse, List.sum_reverse, List.length_reverse]

theorem packedSize_mono {f g : α → Nat} (h : ∀ x, f x ≤ g x) (chunk : List α) :
    packedSize f chunk ≤ packedSize g chunk := by
  have hsum : (chunk.map f).sum ≤ (chunk.map g).sum := by
    induction chunk with
    | nil => exact Nat.le_refl _
    | cons x chunk ih =>
      have := h x
      simp only [List.map_cons, List.sum_cons]
      omega
  unfold packedSize
  omega

theorem packedSize_sublist {xs ys : List α} (h : xs.Sublist ys) :
    packedSize bytes xs ≤ packedSize bytes ys := by
  have hsum : (xs.map bytes).sum ≤ (ys.map bytes).sum := by
    induction h with
    | slnil => exact Nat.le_refl _
    | cons y _ ih =>
      simp only [List.map_cons, List.sum_cons]
      omega
    | cons_cons y _ ih =>
      simp only [List.map_cons, List.sum_cons]
      omega
  have hlength := h.length_le
  simp only [packedSize, separator_size]
  omega

theorem packedSize_map {β : Type} (f : β → α) (xs : List β) :
    packedSize bytes (xs.map f) = packedSize (bytes ∘ f) xs := by
  simp [packedSize]

/-- A chunk of several rows is within the threshold. -/
def WithinThreshold (bytes : α → Nat) (threshold : Nat) (chunk : List α) : Prop :=
  2 ≤ chunk.length → packedSize bytes chunk ≤ threshold

variable {threshold : Nat}

theorem withinThreshold_reverse (chunk : List α) :
    WithinThreshold bytes threshold chunk.reverse ↔ WithinThreshold bytes threshold chunk := by
  rw [WithinThreshold, WithinThreshold, packedSize_reverse, List.length_reverse]

theorem withinThreshold_singleton (x : α) : WithinThreshold bytes threshold [x] := by
  simp [WithinThreshold]

/-! ## Going on with a chunk -/

theorem flatten_packFrom (size : Nat) (chunk xs : List α) :
    (packFrom bytes threshold size chunk xs).flatten = chunk.reverse ++ xs := by
  induction xs generalizing size chunk with
  | nil => simp [packFrom]
  | cons x xs ih =>
    simp only [packFrom]
    split
    · rw [List.flatten_cons, ih, List.reverse_singleton, List.singleton_append]
    · rw [ih, List.reverse_cons, List.append_assoc, List.singleton_append]

theorem ne_nil_of_mem_packFrom (size : Nat) (chunk xs : List α) (hne : chunk ≠ []) :
    ∀ c ∈ packFrom bytes threshold size chunk xs, c ≠ [] := by
  induction xs generalizing size chunk with
  | nil => simpa [packFrom] using hne
  | cons x xs ih =>
    simp only [packFrom]
    split
    · intro c hc
      rcases List.mem_cons.mp hc with rfl | hc
      · simpa using hne
      · exact ih _ [x] (by simp) c hc
    · exact ih _ (x :: chunk) (by simp)

theorem withinThreshold_of_mem_packFrom (size : Nat) (chunk xs : List α) (hne : chunk ≠ [])
    (hsize : size = packedSize bytes chunk) (h : WithinThreshold bytes threshold chunk) :
    ∀ c ∈ packFrom bytes threshold size chunk xs, WithinThreshold bytes threshold c := by
  -- The running size is the size of the chunk so far, whatever has gone into it.
  induction xs generalizing size chunk with
  | nil => simpa [packFrom, withinThreshold_reverse] using h
  | cons x xs ih =>
    simp only [packFrom]
    split
    · intro c hc
      rcases List.mem_cons.mp hc with rfl | hc
      · exact (withinThreshold_reverse chunk).mpr h
      · exact ih _ [x] (by simp) (packedSize_singleton x).symm (withinThreshold_singleton x) c hc
    · have hgrows : size + bytes x + separator.utf8ByteSize = packedSize bytes (x :: chunk) := by
        rw [packedSize_cons x chunk hne, hsize]
      exact ih _ (x :: chunk) (by simp) hgrows fun _ => by omega

theorem packFrom_append (size : Nat) (chunk more xs : List α) (hne : chunk ≠ [])
    (hsize : size = packedSize bytes chunk)
    (h : WithinThreshold bytes threshold (chunk.reverse ++ more)) :
    packFrom bytes threshold size chunk (more ++ xs) =
      packFrom bytes threshold (packedSize bytes (more.reverse ++ chunk)) (more.reverse ++ chunk)
        xs := by
  induction more generalizing size chunk with
  | nil => simp [hsize]
  | cons x more ih =>
    have hgrows : size + bytes x + separator.utf8ByteSize = packedSize bytes (x :: chunk) := by
      rw [packedSize_cons x chunk hne, hsize]
    have htext : (x :: chunk).reverse ++ more = chunk.reverse ++ x :: more := by simp
    have hpart : packedSize bytes (x :: chunk) ≤ packedSize bytes (chunk.reverse ++ x :: more) := by
      rw [← htext, ← packedSize_reverse]
      exact packedSize_sublist (List.sublist_append_left _ _)
    have hlength : 0 < chunk.length := List.length_pos_iff.mpr hne
    have hwhole := h (by simp only [List.length_append, List.length_reverse, List.length_cons]; omega)
    simp only [packFrom, List.cons_append]
    rw [if_neg (by omega), ih _ (x :: chunk) (by simp) hgrows (by rw [htext]; exact h),
      List.reverse_cons, List.append_assoc, List.singleton_append]

theorem packFrom_of_fits (size : Nat) (chunk xs : List α) (hne : chunk ≠ [])
    (hsize : size = packedSize bytes chunk)
    (h : packedSize bytes (chunk.reverse ++ xs) ≤ threshold) :
    packFrom bytes threshold size chunk xs = [chunk.reverse ++ xs] := by
  have happend := packFrom_append size chunk xs [] hne hsize fun _ => h
  rw [List.append_nil] at happend
  rw [happend]
  simp [packFrom]

/-- A chunk takes some of the rows that follow it, and what it leaves is packed anew. -/
theorem packFrom_eq_cons (size : Nat) (chunk xs : List α) :
    ∃ more rest, xs = more ++ rest ∧ packFrom bytes threshold size chunk xs =
      (chunk.reverse ++ more) :: pack bytes threshold rest := by
  induction xs generalizing size chunk with
  | nil => exact ⟨[], [], rfl, by simp [packFrom, pack]⟩
  | cons x xs ih =>
    simp only [packFrom]
    split
    · exact ⟨[], x :: xs, rfl, by rw [List.append_nil, pack]⟩
    · obtain ⟨more, rest, rfl, hmore⟩ := ih (size + bytes x + separator.utf8ByteSize) (x :: chunk)
      exact ⟨x :: more, rest, rfl, by simp [hmore]⟩

theorem packFrom_map {β : Type} (f : β → α) (size : Nat) (chunk xs : List β) :
    packFrom bytes threshold size (chunk.map f) (xs.map f) =
      (packFrom (bytes ∘ f) threshold size chunk xs).map (List.map f) := by
  induction xs generalizing size chunk with
  | nil => simp [packFrom]
  | cons x xs ih =>
    simp only [packFrom, List.map_cons, Function.comp_apply]
    split
    · rw [List.map_cons, ← ih, List.map_reverse, List.map_singleton]
    · rw [← ih, List.map_cons]

/-! ## All rows -/

theorem flatten_pack (xs : List α) : (pack bytes threshold xs).flatten = xs := by
  cases xs with
  | nil => rfl
  | cons x xs => exact flatten_packFrom _ [x] xs

theorem ne_nil_of_mem_pack (xs : List α) : ∀ c ∈ pack bytes threshold xs, c ≠ [] := by
  cases xs with
  | nil => simp [pack]
  | cons x xs => exact ne_nil_of_mem_packFrom _ [x] xs (by simp)

theorem withinThreshold_of_mem_pack (xs : List α) :
    ∀ c ∈ pack bytes threshold xs, WithinThreshold bytes threshold c := by
  cases xs with
  | nil => simp [pack]
  | cons x xs =>
    exact withinThreshold_of_mem_packFrom _ [x] xs (by simp) (packedSize_singleton x).symm
      (withinThreshold_singleton x)

theorem pack_of_fits (xs : List α) (hne : xs ≠ []) (h : packedSize bytes xs ≤ threshold) :
    pack bytes threshold xs = [xs] := by
  cases xs with
  | nil => exact absurd rfl hne
  | cons x xs => exact packFrom_of_fits _ [x] xs (by simp) (packedSize_singleton x).symm h

theorem pack_map {β : Type} (f : β → α) (xs : List β) :
    pack bytes threshold (xs.map f) = (pack (bytes ∘ f) threshold xs).map (List.map f) := by
  cases xs with
  | nil => rfl
  | cons x xs => exact packFrom_map f _ [x] xs

end RowStore.Batch
