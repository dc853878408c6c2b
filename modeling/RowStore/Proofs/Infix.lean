import Mathlib.Data.List.Infix

/-!
# Parts of a text

A part that the separator is not in stands on one side of it.
-/

namespace RowStore

theorem infix_append_cons {α : Type} {l a b : List α} {sep : α} (hne : l ≠ []) (hsep : sep ∉ l) :
    l <:+: a ++ sep :: b ↔ l <:+: a ∨ l <:+: b := by
  have hsplit : ∀ l₁ l₂, l = l₁ ++ l₂ → l₂ <+: sep :: b → l₂ = [] := by
    rintro l₁ l₂ rfl hl₂
    rcases List.prefix_cons_iff.mp hl₂ with hnil | ⟨t, rfl, -⟩
    · exact hnil
    · exact absurd (by simp) hsep
  rw [List.infix_append_iff, List.infix_cons_iff]
  constructor
  · rintro (h | (h | h) | ⟨l₁, l₂, hl, h₁, h₂⟩)
    · exact Or.inl h
    · exact absurd (hsplit [] l rfl h) hne
    · exact Or.inr h
    · obtain rfl := hsplit l₁ l₂ hl h₂
      rw [List.append_nil] at hl
      exact Or.inl (hl ▸ h₁.isInfix)
  · rintro (h | h)
    · exact Or.inl h
    · exact Or.inr (Or.inl (Or.inr h))

theorem infix_intercalate {α : Type} {l : List α} {sep : α} (hne : l ≠ []) (hsep : sep ∉ l)
    (parts : List (List α)) : l <:+: [sep].intercalate parts ↔ ∃ part ∈ parts, l <:+: part := by
  induction parts with
  | nil => simp [hne]
  | cons part parts ih =>
    cases parts with
    | nil => simp
    | cons next parts =>
      rw [List.intercalate_cons_cons, List.append_assoc, List.singleton_append,
        infix_append_cons hne hsep, ih]
      exact (List.exists_mem_cons_iff _ part (next :: parts)).symm

end RowStore
