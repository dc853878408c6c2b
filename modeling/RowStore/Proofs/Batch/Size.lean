import RowStore.Proofs.Batch.Pieces

/-!
# How long rows and statements get

With fewer fields a row and a header are not longer, so the fields of the whole batch bound the
statement of each chunk. A row has at least a byte for each literal.
-/

namespace RowStore.Batch

open Sql (Literal)

/-! ## Texts of fewer fields -/

theorem rowText_size (names : List String) (r : Record) :
    (rowText names r).utf8ByteSize =
      2 + packedSize String.utf8ByteSize ((rowLiterals names r).map Literal.text) := by
  rw [rowText, Literal.tupleText, String.utf8ByteSize_append, String.utf8ByteSize_append]
  have h : (", ".intercalate ((rowLiterals names r).map Literal.text)).utf8ByteSize =
      packedSize String.utf8ByteSize ((rowLiterals names r).map Literal.text) :=
    intercalate_size _
  have hopen : "(".utf8ByteSize = 1 := rfl
  have hclose : ")".utf8ByteSize = 1 := rfl
  omega

theorem rowText_size_le {own names : List String} (h : own.Sublist names) (r : Record) :
    (rowText own r).utf8ByteSize ≤ (rowText names r).utf8ByteSize := by
  have htexts : ((rowLiterals own r).map Literal.text).Sublist
      ((rowLiterals names r).map Literal.text) := (h.map _).map _
  rw [rowText_size, rowText_size]
  exact Nat.add_le_add_left (packedSize_sublist htexts) 2

theorem headerText_size_le (verb : Verb) (table : String) {own names : List String}
    (h : own.Sublist names) :
    (headerText verb table own).utf8ByteSize ≤ (headerText verb table names).utf8ByteSize := by
  have hnames : (Sql.namesText own).utf8ByteSize ≤ (Sql.namesText names).utf8ByteSize := by
    have hown : (Sql.namesText own).utf8ByteSize =
        packedSize String.utf8ByteSize (own.map Sql.quoteName) := intercalate_size _
    have hall : (Sql.namesText names).utf8ByteSize =
        packedSize String.utf8ByteSize (names.map Sql.quoteName) := intercalate_size _
    rw [hown, hall]
    exact packedSize_sublist (h.map _)
  simp only [headerText, String.utf8ByteSize_append]
  omega

/-! ## The least size of a row -/

theorem utf8ByteSize_pos (s : String) (h : s.toList ≠ []) : 0 < s.utf8ByteSize := by
  rw [Nat.pos_iff_ne_zero, ne_eq, String.utf8ByteSize_eq_zero_iff]
  rintro rfl
  exact h rfl

theorem literal_size_pos (l : Literal) (h : l.Readable) : 0 < l.text.utf8ByteSize := by
  apply utf8ByteSize_pos
  cases l with
  | null => decide
  | bool b => cases b <;> decide
  | number digits =>
    rcases h with h | ⟨ds, -, hdigits⟩
    · obtain ⟨c, cs, hdigits, -⟩ := exists_digit_cons_of_isNumeral _ h
      simp [Literal.text, hdigits]
    · simp [Literal.text, hdigits]
  | string s => simp [Literal.text, Sql.quoteString, Sql.quotedString]
  | binary content => simp [Literal.text]

theorem length_le_sum (sizes : List Nat) (h : ∀ n ∈ sizes, 0 < n) :
    sizes.length ≤ sizes.sum := by
  induction sizes with
  | nil => exact Nat.le_refl _
  | cons n sizes ih =>
    have hn := h n List.mem_cons_self
    have hrest := ih fun m hm => h m (List.mem_cons_of_mem _ hm)
    rw [List.length_cons, List.sum_cons]
    omega

/-- The bytes of the shortest row: two parentheses, a byte for each literal, and separators. -/
def leastRow (names : List String) : Nat := if names = [] then 2 else 3 * names.length

theorem leastRow_le (names : List String) (r : Record) :
    leastRow names ≤ (rowText names r).utf8ByteSize := by
  have hliterals := length_le_sum
    (((rowLiterals names r).map Literal.text).map String.utf8ByteSize) (by
      intro n hn
      simp only [List.map_map, List.mem_map, Function.comp_apply] at hn
      obtain ⟨l, hl, rfl⟩ := hn
      exact literal_size_pos l (readable_rowLiterals names r l hl))
  rw [rowText_size, packedSize, separator_size]
  simp only [List.length_map, rowLiterals] at hliterals ⊢
  unfold leastRow
  split
  · omega
  · rename_i hne
    have hlength : 0 < names.length := List.length_pos_iff.mpr hne
    omega

theorem rowText_nil (r : Record) : (rowText [] r).utf8ByteSize = 2 := rfl

theorem packedSize_nil (chunk : List Record) (h : chunk ≠ []) :
    packedSize (fun r => (rowText [] r).utf8ByteSize) chunk + 2 = 4 * chunk.length := by
  have hlength : 0 < chunk.length := List.length_pos_iff.mpr h
  simp only [packedSize, rowText_nil, List.map_const', List.sum_replicate_nat, separator_size]
  omega

/-- The most bytes that a chunk can reach. Without fields all rows have the same four bytes, the
separator included. -/
def fullChunk (names : List String) (threshold : Nat) : Nat :=
  if names = [] then 4 * ((threshold + 2) / 4) - 2 else threshold

theorem le_fullChunk {names : List String} {threshold : Nat} {chunk : List Record}
    (hne : chunk ≠ [])
    (h : packedSize (fun r => (rowText names r).utf8ByteSize) chunk ≤ threshold) :
    packedSize (fun r => (rowText names r).utf8ByteSize) chunk ≤ fullChunk names threshold := by
  unfold fullChunk
  split
  · rename_i hnil
    subst hnil
    have := packedSize_nil chunk hne
    omega
  · exact h

/-! ## The size of a statement -/

theorem pieceOf_size (verb : Verb) (table : String) (names : List String) (chunk : List Record) :
    (pieceOf verb table names chunk).sql.utf8ByteSize =
      (headerText verb table ((fieldsWithin names chunk).map ColumnName.ofField)).utf8ByteSize +
        packedSize (fun r => (rowText (fieldsWithin names chunk) r).utf8ByteSize) chunk := by
  rw [pieceOf, assemble_size, wholeSize_eq, packedSize_map]
  rfl

theorem pieceOf_size_le (verb : Verb) (table : String) (names : List String)
    (chunk : List Record) :
    (pieceOf verb table names chunk).sql.utf8ByteSize ≤
      (headerText verb table (names.map ColumnName.ofField)).utf8ByteSize +
        packedSize (fun r => (rowText names r).utf8ByteSize) chunk := by
  rw [pieceOf_size]
  have hsub := fieldsWithin_sublist names chunk
  have hheader := headerText_size_le verb table (hsub.map ColumnName.ofField)
  have hrows := packedSize_mono (rowText_size_le hsub) chunk
  omega

theorem le_packedSize (names : List String) (chunk : List Record) (htwo : 2 ≤ chunk.length) :
    2 * leastRow names + 2 ≤ packedSize (fun r => (rowText names r).utf8ByteSize) chunk := by
  obtain ⟨r, s, rest, rfl⟩ : ∃ r s rest, chunk = r :: s :: rest := by
    match chunk, htwo with
    | r :: s :: rest, _ => exact ⟨r, s, rest, rfl⟩
  have hr := leastRow_le names r
  have hs := leastRow_le names s
  simp only [packedSize, List.map_cons, List.sum_cons, List.length_cons, separator_size]
  omega

end RowStore.Batch
