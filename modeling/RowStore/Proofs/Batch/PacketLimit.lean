import RowStore.Proofs.Batch.Size

/-!
# The limit on statements of several rows

Packing looks at the rows of a chunk and not at what stands before them. A statement of several
rows is certain to fit into a packet just when the threshold leaves room for the header, or when
it leaves no room for two rows at all.
-/

namespace RowStore.Batch

open Sql (Literal)

/-! ## Statements of several rows -/

section

variable {limits : Limits} {verb : Verb} {table : String} {rows : List Record} {p : Plan}

theorem packedSize_le_of_mem_chunksOf (h : limits.packet < batchSize verb table rows)
    {chunk : List Record} (hchunk : chunk ∈ chunksOf limits verb table rows)
    (htwo : 2 ≤ chunk.length) :
    packedSize (fun r => (rowText (fieldUnion rows) r).utf8ByteSize) chunk ≤
      limits.threshold := by
  rw [chunksOf, if_neg (by omega)] at hchunk
  exact withinThreshold_of_mem_pack rows chunk hchunk htwo

/-- The header fits before the fullest chunk, or no chunk has several rows. -/
def LeavesRoom (limits : Limits) (header : String) (names : List String) : Prop :=
  header.utf8ByteSize + fullChunk names limits.threshold ≤ limits.packet ∨
    limits.threshold < 2 * leastRow names + 2

theorem size_le_of_leavesRoom
    (hroom : LeavesRoom limits
      (headerText verb table ((fieldUnion rows).map ColumnName.ofField)) (fieldUnion rows))
    {chunk : List Record} (hchunk : chunk ∈ chunksOf limits verb table rows)
    (htwo : 2 ≤ chunk.length) :
    (pieceOf verb table (fieldUnion rows) chunk).sql.utf8ByteSize ≤ limits.packet := by
  have hsize := pieceOf_size_le verb table (fieldUnion rows) chunk
  rcases Nat.lt_or_ge limits.packet (batchSize verb table rows) with hsplit | hfits
  · have hpacked := packedSize_le_of_mem_chunksOf hsplit hchunk htwo
    have hleast := le_packedSize (fieldUnion rows) chunk htwo
    have hfull := le_fullChunk (by rintro rfl; simp at htwo) hpacked
    rcases hroom with hroom | hroom <;> omega
  · rw [chunksOf, if_pos hfits, List.mem_singleton] at hchunk
    subst hchunk
    rw [batchSize, wholeSize_eq, packedSize_map] at hfits
    exact hsize.trans hfits

theorem fits_of_leavesRoom (hne : rows ≠ [])
    (hroom : LeavesRoom limits
      (headerText verb table ((fieldUnion rows).map ColumnName.ofField)) (fieldUnion rows))
    (h : plan limits verb table rows = .ok p) :
    ∀ piece ∈ p.pieces, 2 ≤ piece.rows → piece.sql.utf8ByteSize ≤ limits.packet := by
  intro piece hpiece htwo
  rw [plan_pieces hne h, List.mem_map] at hpiece
  obtain ⟨chunk, hchunk, rfl⟩ := hpiece
  rw [rows_pieceOf] at htwo
  exact size_le_of_leavesRoom hroom hchunk htwo

/-- One statement alone would be as long as the batch, so several rows that do not fit are split. -/
theorem split_of_leavesRoom
    (hroom : LeavesRoom limits
      (headerText verb table ((fieldUnion rows).map ColumnName.ofField)) (fieldUnion rows))
    (h : plan limits verb table rows = .ok p) (htwo : 2 ≤ rows.length)
    (hbatch : limits.packet < batchSize verb table rows) : 2 ≤ p.pieces.length := by
  have hne : rows ≠ [] := by
    rintro rfl
    simp at htwo
  have hflatten := flatten_chunksOf limits verb table rows
  rw [plan_pieces hne h, List.length_map]
  match hchunks : chunksOf limits verb table rows with
  | [] =>
    rw [hchunks] at hflatten
    exact absurd hflatten.symm hne
  | [chunk] =>
    rw [hchunks, List.flatten_singleton] at hflatten
    subst hflatten
    have hsize := size_le_of_leavesRoom hroom (by rw [hchunks]; simp) htwo
    rw [pieceOf_size, fieldsWithin_fieldUnion] at hsize
    rw [batchSize, wholeSize_eq, packedSize_map, Function.comp_def] at hbatch
    omega
  | _ :: _ :: _ => simp

end

/-! ## Two rows that fill the threshold -/

def rowOf (names : List String) (h : names.Nodup) (value : String → Value) : Record :=
  ⟨names.map fun name => (name, value name), by simpa [Function.comp_def] using h⟩

theorem names_rowOf (names : List String) (h : names.Nodup) (value : String → Value) :
    (rowOf names h value).names = names := by
  simp [rowOf, Record.names, Function.comp_def]

theorem lookup_map_of_mem (names : List String) (value : String → Value) (name : String)
    (h : name ∈ names) :
    (names.map fun name => (name, value name)).lookup name = some (value name) := by
  induction names with
  | nil => cases h
  | cons other names ih =>
    rw [List.map_cons, List.lookup_cons]
    by_cases heq : name = other
    · subst heq
      simp
    · have hne : (name == other) = false := beq_eq_false_iff_ne.mpr heq
      rw [hne]
      exact ih ((List.mem_cons.mp h).resolve_left heq)

theorem rowLiterals_rowOf (names : List String) (h : names.Nodup) (value : String → Value) :
    rowLiterals names (rowOf names h value) = names.map fun name => (value name).literal := by
  refine List.map_congr_left fun name hname => ?_
  rw [Record.get?, rowOf, lookup_map_of_mem names value name hname]
  rfl

/-- Zero in each field but one. -/
def zerosBut (name : String) (v : Value) (other : String) : Value :=
  if other = name then v else .int 0

theorem rowText_zerosBut (name : String) (names : List String) (h : (name :: names).Nodup)
    (v : Value) :
    (rowText (name :: names) (rowOf (name :: names) h (zerosBut name v))).utf8ByteSize =
      2 + v.literal.text.utf8ByteSize + 3 * names.length := by
  have hzeros : ∀ other ∈ names, (zerosBut name v other).literal.text.utf8ByteSize = 1 := by
    intro other hother
    have hne : other ≠ name := by
      rintro rfl
      exact (List.nodup_cons.mp h).1 hother
    rw [zerosBut, if_neg hne]
    rfl
  have hsum : (names.map fun other => (zerosBut name v other).literal.text.utf8ByteSize).sum =
      names.length := by
    rw [List.map_congr_left hzeros, List.map_const', List.sum_replicate_nat, Nat.mul_one]
  have hfirst : zerosBut name v name = v := if_pos rfl
  rw [rowText_size, rowLiterals_rowOf, packedSize, separator_size]
  simp only [List.map_map, List.map_cons, List.sum_cons, List.length_cons, List.length_map,
    Function.comp_def, hsum, hfirst]
  omega

theorem utf8ByteSize_replicate (n : Nat) :
    (String.ofList (List.replicate n 'a')).utf8ByteSize = n := by
  induction n with
  | zero => rfl
  | succ n ih =>
    have hone : (String.ofList ['a']).utf8ByteSize = 1 := rfl
    rw [List.replicate_succ, ← List.singleton_append, String.ofList_append,
      String.utf8ByteSize_append, ih, hone, Nat.add_comm]

/-- A value whose literal has just as many bytes, one at least. -/
def valueOfSize : Nat → Value
  | n + 2 => .text (String.ofList (List.replicate n 'a'))
  | _ => .int 0

theorem valueOfSize_size (n : Nat) (h : 0 < n) :
    (valueOfSize n).literal.text.utf8ByteSize = n := by
  match n, h with
  | 1, _ => rfl
  | n + 2, _ =>
    have htext : (valueOfSize (n + 2)).literal.text =
        "'" ++ String.ofList (List.replicate n 'a') ++ "'" := by
      rw [← String.toList_inj]
      simp [valueOfSize, Value.literal, Literal.text, Sql.quoteString, Sql.quotedString,
        List.flatMap_replicate, Sql.stringChar]
    have hquote : "'".utf8ByteSize = 1 := rfl
    rw [htext, String.utf8ByteSize_append, String.utf8ByteSize_append, utf8ByteSize_replicate]
    omega

theorem isStructured_valueOfSize (n : Nat) : (valueOfSize n).isStructured = false := by
  unfold valueOfSize
  split <;> rfl

theorem checkRow_rowOf (names : List String) (h : names.Nodup) (value : String → Value)
    (hnames : ∀ name ∈ names, ColumnName.ofField? name = .ok (ColumnName.ofField name))
    (hvalues : ∀ name ∈ names, (value name).isStructured = false) :
    checkRow (rowOf names h value) = .ok () := by
  rw [checkRow_eq_ok]
  intro f hf
  obtain ⟨name, hname, rfl⟩ := List.mem_map.mp hf
  exact ⟨hnames name hname, hvalues name hname⟩

theorem exists_pair_of_size (names : List String) (h : names.Nodup) (hne : names ≠ [])
    (hnames : ∀ name ∈ names, ColumnName.ofField? name = .ok (ColumnName.ofField name))
    (size : Nat) (hsize : 6 * names.length + 2 ≤ size) :
    ∃ rows : List Record, 2 ≤ rows.length ∧ (∀ r ∈ rows, r.names = names ∧ checkRow r = .ok ()) ∧
      packedSize (fun r => (rowText names r).utf8ByteSize) rows = size := by
  obtain ⟨name, others, rfl⟩ := List.exists_cons_of_ne_nil hne
  rw [List.length_cons] at hsize
  -- The first row takes three bytes for each field, the second one all the others.
  obtain ⟨v, hvsize, hvplain⟩ : ∃ v : Value,
      v.literal.text.utf8ByteSize = size - 6 * others.length - 7 ∧ v.isStructured = false :=
    ⟨valueOfSize _, valueOfSize_size _ (by omega), isStructured_valueOfSize _⟩
  have hrow : ∀ w : Value, w.isStructured = false →
      checkRow (rowOf (name :: others) h (zerosBut name w)) = .ok () := by
    intro w hw
    refine checkRow_rowOf _ h _ hnames fun other _ => ?_
    unfold zerosBut
    split
    · exact hw
    · rfl
  have hzero := rowText_zerosBut name others h (.int 0)
  have hv := rowText_zerosBut name others h v
  have hzerosize : (Value.int 0).literal.text.utf8ByteSize = 1 := rfl
  refine ⟨[rowOf _ h (zerosBut name (.int 0)), rowOf _ h (zerosBut name v)], Nat.le_refl 2, ?_, ?_⟩
  · intro r hr
    rcases List.mem_pair.mp hr with rfl | rfl
    · exact ⟨names_rowOf _ _ _, hrow _ rfl⟩
    · exact ⟨names_rowOf _ _ _, hrow v hvplain⟩
  · simp only [packedSize, List.map_cons, List.map_nil, List.sum_cons, List.sum_nil,
      List.length_cons, List.length_nil, separator_size]
    omega

theorem exists_fullChunk (names : List String) (h : names.Nodup)
    (hnames : ∀ name ∈ names, ColumnName.ofField? name = .ok (ColumnName.ofField name))
    (threshold : Nat) (hthreshold : 2 * leastRow names + 2 ≤ threshold) :
    ∃ rows : List Record, 2 ≤ rows.length ∧ (∀ r ∈ rows, r.names = names ∧ checkRow r = .ok ()) ∧
      packedSize (fun r => (rowText names r).utf8ByteSize) rows = fullChunk names threshold := by
  unfold leastRow at hthreshold
  unfold fullChunk
  split at hthreshold
  · rename_i hnil
    subst hnil
    -- A row without fields takes two bytes, and there are two more between rows.
    have hlength : (List.replicate ((threshold + 2) / 4) Record.empty).length =
        (threshold + 2) / 4 := List.length_replicate
    refine ⟨List.replicate ((threshold + 2) / 4) Record.empty, by omega, ?_, ?_⟩
    · intro r hr
      rw [List.eq_of_mem_replicate hr]
      exact ⟨rfl, rfl⟩
    · have hsize := packedSize_nil (List.replicate ((threshold + 2) / 4) Record.empty) (by
        rw [ne_eq, ← List.length_eq_zero_iff]
        omega)
      rw [if_pos rfl]
      omega
  · rename_i hne
    rw [if_neg hne]
    exact exists_pair_of_size names h hne hnames threshold (by omega)

theorem exists_oversize {limits : Limits} (verb : Verb) {table : String} {names : List String}
    (htable : Text.blankOnly table = false) (h : names.Nodup)
    (hnames : ∀ name ∈ names, ColumnName.ofField? name = .ok (ColumnName.ofField name))
    (hroom : ¬ LeavesRoom limits (headerText verb table (names.map ColumnName.ofField)) names) :
    ∃ rows p piece, fieldUnion rows = names ∧ plan limits verb table rows = .ok p ∧
      p.pieces = [piece] ∧ 2 ≤ rows.length ∧ 2 ≤ piece.rows ∧
      limits.packet < batchSize verb table rows ∧
      limits.packet < piece.sql.utf8ByteSize := by
  obtain ⟨hover, hthreshold⟩ := not_or.mp hroom
  obtain ⟨rows, htwo, hrows, hsize⟩ :=
    exists_fullChunk names h hnames limits.threshold (by omega)
  have hne : rows ≠ [] := by
    rintro rfl
    simp at htwo
  have hunion := fieldUnion_of_same names h rows hne fun r hr => (hrows r hr).1
  have hinsertable : Insertable table rows := ⟨htable, fun r hr => (hrows r hr).2⟩
  have hbatch : limits.packet < batchSize verb table rows := by
    rw [batchSize, hunion, wholeSize_eq, packedSize_map, Function.comp_def, hsize]
    omega
  have hfull : fullChunk names limits.threshold ≤ limits.threshold := by
    unfold fullChunk
    split <;> omega
  -- The rows are within the threshold, so they stay together, and there are no others.
  have hchunks : chunksOf limits verb table rows = [rows] := by
    rw [chunksOf, if_neg (by omega), hunion]
    exact pack_of_fits rows hne (by omega)
  obtain ⟨entries, hplan⟩ : ∃ entries, plan limits verb table rows = .ok ⟨_, entries⟩ :=
    plan_eq hne hinsertable
  rw [hchunks, List.map_singleton] at hplan
  refine ⟨rows, _, _, hunion, hplan, rfl, htwo, by rwa [rows_pieceOf], hbatch, ?_⟩
  have hown := fieldsWithin_fieldUnion rows
  rw [hunion] at hown ⊢
  rw [pieceOf_size, hown, hsize]
  omega

/-! ## The limit -/

/-- For batches with the given fields, two promises hold in just the same cases: that a statement
of several rows fits into a packet, and that several rows which do not fit together are split. -/
theorem packet_limit_iff (limits : Limits) (verb : Verb) (table : String) (names : List String)
    (text : String) (htable : Text.blankOnly table = false) (hnodup : names.Nodup)
    (hheader : header verb table names = .ok text) :
    ((∀ rows p, fieldUnion rows = names → plan limits verb table rows = .ok p →
        ∀ piece ∈ p.pieces, 2 ≤ piece.rows → piece.sql.utf8ByteSize ≤ limits.packet) ↔
      LeavesRoom limits text names) ∧
    ((∀ rows p, fieldUnion rows = names → plan limits verb table rows = .ok p →
        2 ≤ rows.length → limits.packet < batchSize verb table rows → 2 ≤ p.pieces.length) ↔
      LeavesRoom limits text names) := by
  obtain ⟨hnames, rfl⟩ := header_eq_ok_iff.mp hheader
  refine ⟨⟨?_, ?_⟩, ⟨?_, ?_⟩⟩
  · intro hall
    by_contra hroom
    obtain ⟨rows, p, piece, hunion, hplan, hpieces, -, hrows, -, hover⟩ :=
      exists_oversize verb htable hnodup hnames hroom
    have hfits := hall rows p hunion hplan piece (by simp [hpieces]) hrows
    omega
  · rintro hroom rows p rfl hplan
    rcases eq_or_ne rows [] with rfl | hne
    · obtain rfl := Except.ok.inj (plan_nil.symm.trans hplan)
      simp
    · exact fits_of_leavesRoom hne hroom hplan
  · intro hall
    by_contra hroom
    obtain ⟨rows, p, piece, hunion, hplan, hpieces, hlength, -, hbatch, -⟩ :=
      exists_oversize verb htable hnodup hnames hroom
    have htwo := hall rows p hunion hplan hlength hbatch
    simp [hpieces] at htwo
  · rintro hroom rows p rfl hplan htwo hbatch
    exact split_of_leavesRoom hroom hplan htwo hbatch

theorem packet_limit_standard :
    header .insert "t" ["a"] = .ok "INSERT INTO `t` (`a`) VALUES " ∧
      ∀ rows p, fieldUnion rows = ["a"] → plan .standard .insert "t" rows = .ok p →
        ∀ piece ∈ p.pieces, 2 ≤ piece.rows →
          piece.sql.utf8ByteSize ≤ Limits.standard.packet := by
  have h : header .insert "t" ["a"] = .ok "INSERT INTO `t` (`a`) VALUES " := rfl
  have hlimit := packet_limit_iff .standard .insert "t" ["a"] _ rfl (by decide) h
  exact ⟨h, hlimit.1.mpr (Or.inl (by decide))⟩

/-- Two rows that would fit one by one stay together in a statement that does not fit. -/
theorem two_rows_over_packet :
    (⟨32, 32⟩ : Limits).Valid ∧
      ∃ p piece, plan ⟨32, 32⟩ .insert "t"
          [⟨[("a", .int 1)], by decide⟩, ⟨[("a", .int 2)], by decide⟩] = .ok p ∧
        p.pieces = [piece] ∧ piece.rows = 2 ∧ piece.sql.utf8ByteSize = 37 :=
  ⟨by decide, _, _, rfl, rfl, rfl, rfl⟩

end RowStore.Batch
