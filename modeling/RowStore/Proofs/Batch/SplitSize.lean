import RowStore.Proofs.Batch.PacketLimit
import RowStore.Proofs.Batch.ReadBack

/-!
# How long the statements of a split batch get

Rows are packed by the texts that they have under all fields of the batch. The statement of a chunk
may list fewer fields, which makes neither its header nor its rows longer.
-/

namespace RowStore.Batch

/-- The bounds on the statement of a chunk: the header of the whole batch, and then the threshold
or, for one row alone, the text of that row under all fields. -/
structure SizeBounds (limits : Limits) (shared : String) (names : List String)
    (chunk : List Record) (sql : String) : Prop where
  several : 2 ≤ chunk.length → sql.utf8ByteSize ≤ shared.utf8ByteSize + limits.threshold
  one : ∀ r, chunk = [r] →
    sql.utf8ByteSize ≤ shared.utf8ByteSize + (rowText names r).utf8ByteSize

variable {limits : Limits} {verb : Verb} {table : String} {rows : List Record}

theorem sizeBounds_pieceOf (h : limits.packet < batchSize verb table rows) {chunk : List Record}
    (hchunk : chunk ∈ chunksOf limits verb table rows) :
    SizeBounds limits (headerText verb table ((fieldUnion rows).map ColumnName.ofField))
      (fieldUnion rows) chunk (pieceOf verb table (fieldUnion rows) chunk).sql := by
  have hsize := pieceOf_size_le verb table (fieldUnion rows) chunk
  constructor
  · intro htwo
    exact hsize.trans (Nat.add_le_add_left (packedSize_le_of_mem_chunksOf h hchunk htwo) _)
  · rintro r rfl
    rwa [packedSize_singleton] at hsize

theorem header_of_plan {p : Plan} (h : plan limits verb table rows = .ok p) :
    header verb table (fieldUnion rows) =
      .ok (headerText verb table ((fieldUnion rows).map ColumnName.ofField)) := by
  rcases eq_or_ne rows [] with rfl | hne
  · rfl
  · exact header_eq_ok (insertable_of_plan hne h).ofField?

/-- When the rows do not fit into one statement, each statement of the plan says the rows of its
chunk within the bounds, also when it lists only the fields of these rows. -/
theorem split_sizes (limits : Limits) (verb : Verb) (table : String) (rows : List Record)
    (p : Plan) (h : plan limits verb table rows = .ok p) :
    ∃ shared, header verb table (fieldUnion rows) = .ok shared ∧
      (limits.packet <
          (assemble shared (rows.map (rowText (fieldUnion rows)))).sql.utf8ByteSize →
        ∃ chunks : List (List Record), chunks.flatten = rows ∧
          List.Forall₂ (fun piece chunk => piece.rows = chunk.length ∧
            readBack? piece.sql = some (insertOf verb table rows chunk) ∧
            SizeBounds limits shared (fieldUnion rows) chunk piece.sql) p.pieces chunks) := by
  refine ⟨_, header_of_plan h, fun hsplit => ?_⟩
  rcases eq_or_ne rows [] with rfl | hne
  · obtain rfl := Except.ok.inj (plan_nil.symm.trans h)
    exact ⟨[], rfl, .nil⟩
  · rw [assemble_size] at hsplit
    refine ⟨chunksOf limits verb table rows, flatten_chunksOf limits verb table rows, ?_⟩
    rw [plan_pieces hne h, List.forall₂_map_left_iff, List.forall₂_same]
    intro chunk hchunk
    exact ⟨rows_pieceOf _ _ _ _, readBack?_pieceOf verb table rows chunk
      (ne_nil_of_mem_chunksOf limits verb table rows hne chunk hchunk),
      sizeBounds_pieceOf hsplit hchunk⟩

/-- Each of the two statements leaves out a field of the batch. -/
theorem split_sizes_hostileRows :
    ∃ p shared, plan ⟨60, 43⟩ .insert "t" hostileRows = .ok p ∧
      header .insert "t" (fieldUnion hostileRows) = .ok shared ∧
      60 < (assemble shared
        (hostileRows.map (rowText (fieldUnion hostileRows)))).sql.utf8ByteSize ∧
      ∃ chunks : List (List Record), chunks.flatten = hostileRows ∧
        List.Forall₂ (fun piece chunk => piece.rows = chunk.length ∧
          readBack? piece.sql = some (insertOf .insert "t" hostileRows chunk) ∧
          SizeBounds ⟨60, 43⟩ shared (fieldUnion hostileRows) chunk piece.sql) p.pieces chunks := by
  have h : plan ⟨60, 43⟩ .insert "t" hostileRows = .ok ⟨
      [⟨"INSERT INTO `t` (`a_dot_b`, `c`) VALUES (1, '\\'), (\\''), (NULL, NULL)", 2⟩,
        ⟨"INSERT INTO `t` (`c`, `d`) VALUES (NULL, -5)", 1⟩], _⟩ := rfl
  obtain ⟨shared, hheader, hsizes⟩ := split_sizes _ _ _ _ _ h
  obtain rfl : "INSERT INTO `t` (`a_dot_b`, `c`, `d`) VALUES " = shared :=
    Except.ok.inj (Eq.trans rfl hheader)
  have hsplit : 60 < (assemble "INSERT INTO `t` (`a_dot_b`, `c`, `d`) VALUES "
      (hostileRows.map (rowText (fieldUnion hostileRows)))).sql.utf8ByteSize := by decide
  exact ⟨_, _, h, hheader, hsplit, hsizes hsplit⟩

end RowStore.Batch
