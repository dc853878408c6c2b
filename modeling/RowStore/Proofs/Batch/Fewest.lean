import RowStore.Proofs.Batch.Pieces

/-!
# The fewest chunks

No division of a batch keeps to the threshold with fewer parts than packing makes. Wherever the
parts of another division end, the chunks have come at least as far.
-/

namespace RowStore.Batch

variable {α : Type} {bytes : α → Nat} {threshold : Nat}

theorem WithinThreshold.sublist {xs ys : List α} (h : WithinThreshold bytes threshold ys)
    (hsub : xs.Sublist ys) : WithinThreshold bytes threshold xs :=
  fun htwo => (packedSize_sublist hsub).trans (h (htwo.trans hsub.length_le))

theorem pack_append (part xs : List α) (hne : part ≠ [])
    (h : WithinThreshold bytes threshold part) :
    ∃ more rest, xs = more ++ rest ∧
      pack bytes threshold (part ++ xs) = (part ++ more) :: pack bytes threshold rest := by
  obtain ⟨x, part, rfl⟩ := List.exists_cons_of_ne_nil hne
  have happend := packFrom_append (bytes x) [x] part xs (by simp) (packedSize_singleton x).symm h
  obtain ⟨more, rest, rfl, hmore⟩ : ∃ more rest, xs = more ++ rest ∧ _ =
      ((part.reverse ++ [x]).reverse ++ more) :: pack bytes threshold rest :=
    packFrom_eq_cons (packedSize bytes (part.reverse ++ [x])) (part.reverse ++ [x]) xs
  refine ⟨more, rest, rfl, ?_⟩
  rw [List.cons_append, pack, happend, hmore]
  simp

/-- Rows that are left when a division still has some parts to go need no more chunks than these. -/
theorem length_pack_le (parts : List (List α)) (xs : List α) (hsuffix : xs <:+ parts.flatten)
    (h : ∀ part ∈ parts, WithinThreshold bytes threshold part) :
    (pack bytes threshold xs).length ≤ parts.length := by
  induction parts generalizing xs with
  | nil =>
    rw [List.flatten_nil, List.suffix_nil] at hsuffix
    subst hsuffix
    exact Nat.le_refl 0
  | cons part parts ih =>
    obtain ⟨hpart, hparts⟩ := List.forall_mem_cons.mp h
    have hlater : ∀ ys, ys <:+ parts.flatten →
        (pack bytes threshold ys).length ≤ parts.length := fun ys hys => ih ys hys hparts
    obtain ⟨done, hdone⟩ := hsuffix
    rw [List.flatten_cons] at hdone
    rcases List.append_eq_append_iff.mp hdone with ⟨left, rfl, rfl⟩ | ⟨past, -, hpast⟩
    · rcases eq_or_ne left [] with rfl | hne
      · exact (hlater _ (List.suffix_refl _)).trans (Nat.le_succ _)
      · -- The chunk that begins here reaches the end of the part, or goes beyond it.
        obtain ⟨more, rest, hrest, hpack⟩ := pack_append left parts.flatten hne
          (hpart.sublist (List.sublist_append_right _ _))
        rw [hpack, List.length_cons, List.length_cons]
        exact Nat.succ_le_succ (hlater rest ⟨more, hrest.symm⟩)
    · exact (hlater xs ⟨past, hpast.symm⟩).trans (Nat.le_succ _)

/-- Consecutive parts of a list. The texts of a part with several members, joined by the
separator, are within the threshold. -/
structure Divides (text : α → String) (threshold : Nat) (xs : List α)
    (parts : List (List α)) : Prop where
  flatten : parts.flatten = xs
  fits : ∀ part ∈ parts, 2 ≤ part.length →
    (separator.intercalate (part.map text)).utf8ByteSize ≤ threshold

theorem fits_iff_withinThreshold (text : α → String) (part : List α) :
    (2 ≤ part.length → (separator.intercalate (part.map text)).utf8ByteSize ≤ threshold) ↔
      WithinThreshold (fun x => (text x).utf8ByteSize) threshold part := by
  rw [intercalate_size, packedSize_map]
  exact Iff.rfl

/-- Packing divides the rows into parts that are not empty, and no division has fewer parts. -/
theorem pack_fewest (text : α → String) (threshold : Nat) (xs : List α) :
    Divides text threshold xs (pack (fun x => (text x).utf8ByteSize) threshold xs) ∧
    (∀ part ∈ pack (fun x => (text x).utf8ByteSize) threshold xs, part ≠ []) ∧
    ∀ parts, Divides text threshold xs parts →
      (pack (fun x => (text x).utf8ByteSize) threshold xs).length ≤ parts.length := by
  refine ⟨⟨flatten_pack xs, ?_⟩, ne_nil_of_mem_pack xs, ?_⟩
  · intro part hpart
    exact (fits_iff_withinThreshold text part).mpr (withinThreshold_of_mem_pack xs part hpart)
  · intro parts hparts
    refine length_pack_le parts xs (by rw [hparts.flatten]) ?_
    exact fun part hpart => (fits_iff_withinThreshold text part).mp (hparts.fits part hpart)

/-- A row over the threshold between rows that fit in pairs. -/
theorem pack_fewest_oversized :
    Divides id 8 ["(1)", "(2000000)", "(3)", "(4)", "(5)"]
        [["(1)"], ["(2000000)"], ["(3)"], ["(4)", "(5)"]] ∧
      (pack (fun tuple : String => tuple.utf8ByteSize) 8
        ["(1)", "(2000000)", "(3)", "(4)", "(5)"]).length ≤ 4 := by
  have h : Divides id 8 ["(1)", "(2000000)", "(3)", "(4)", "(5)"]
      [["(1)"], ["(2000000)"], ["(3)"], ["(4)", "(5)"]] := ⟨rfl, by decide⟩
  exact ⟨h, (pack_fewest id 8 _).2.2 _ h⟩

end RowStore.Batch
