import Mathlib
import RowStore.Proofs.Sql.Reading
import RowStore.Sql.Buffer

/-!
# Strings in a buffer

Between two escapes a string is copied byte by byte, and no piece of it begins or ends inside a
character. What is written behind the buffer is the quoted string, and a server reads it as that
string whatever stands behind it.
-/

namespace RowStore.Sql

open Text (utf8Bytes)

/-! ## Pieces of a text -/

theorem slice?_append (a b c : String) :
    slice? (a ++ b ++ c) a.utf8ByteSize (a ++ b).utf8ByteSize = some b := by
  have hstart : (String.Pos.Raw.mk a.utf8ByteSize).IsValid (a ++ b ++ c) :=
    String.Pos.Raw.isValid_iff_exists_append.mpr ⟨a, b ++ c, String.append_assoc .., rfl⟩
  have hstop : (String.Pos.Raw.mk (a ++ b).utf8ByteSize).IsValid (a ++ b ++ c) :=
    String.Pos.Raw.isValid_iff_exists_append.mpr ⟨a ++ b, c, rfl, rfl⟩
  have hle : a.utf8ByteSize ≤ (a ++ b).utf8ByteSize := by
    rw [String.utf8ByteSize_append]
    omega
  unfold slice?
  rw [dif_pos ⟨hle, hstart, hstop⟩, Option.some_inj, ← String.toByteArray_inj,
    String.toByteArray_extract]
  change (a ++ b ++ c).toByteArray.extract a.utf8ByteSize (a ++ b).utf8ByteSize = _
  have hpart := ByteArray.extract_append_size_add (a := a.toByteArray) (i := 0)
    (b := b.toByteArray ++ c.toByteArray) (j := b.toByteArray.size)
  rw [Nat.add_zero, ByteArray.extract_append_eq_left rfl] at hpart
  rw [String.append_assoc, String.toByteArray_append, String.toByteArray_append,
    String.utf8ByteSize_append]
  exact hpart

theorem utf8Bytes_cons (c : Char) (cs : List Char) :
    utf8Bytes (String.ofList (c :: cs)) =
      String.utf8EncodeChar c ++ utf8Bytes (String.ofList cs) := by
  simp [utf8Bytes, List.utf8Encode]

/-! ## Bytes of a character -/

theorem escape?_ascii : ∀ n < 128, (escape? (UInt8.ofNat n) = none ∧
      stringChar (Char.ofNat n) = [Char.ofNat n]) ∨
    escape? (UInt8.ofNat n) = some (stringChar (Char.ofNat n)) := by
  decide

theorem escape?_of_le (b : UInt8) (h : 0x80 ≤ b.toNat) : escape? b = none := by
  unfold escape?
  split <;> first | omega | rfl

theorem stringChar_of_le (c : Char) (h : 0x80 ≤ c.toNat) : stringChar c = [c] := by
  unfold stringChar
  split <;> first | exact absurd h (by decide) | rfl

theorem le_of_mem_utf8EncodeChar (c : Char) (h : 0x80 ≤ c.toNat) :
    ∀ b ∈ String.utf8EncodeChar c, 0x80 ≤ b.toNat := by
  have hv : c.val.toNat = c.toNat := rfl
  intro b hb
  simp only [String.utf8EncodeChar, hv] at hb
  split_ifs at hb
  · omega
  all_goals
    simp only [List.mem_cons, List.not_mem_nil, or_false] at hb
    rcases hb with rfl | rfl | rfl | rfl <;> rw [UInt8.toNat_ofNat'] <;> omega

theorem utf8EncodeChar_of_lt {c : Char} (h : c.toNat < 0x80) :
    String.utf8EncodeChar c = [UInt8.ofNat c.toNat] := by
  simp only [String.utf8EncodeChar]
  exact if_pos (Nat.le_of_lt_succ h)

theorem utf8EncodeChar_cases (c : Char) :
    ((∀ b ∈ String.utf8EncodeChar c, escape? b = none) ∧ stringChar c = [c]) ∨
      ∃ b, String.utf8EncodeChar c = [b] ∧ escape? b = some (stringChar c) := by
  by_cases h : c.toNat < 0x80
  · have hbytes := utf8EncodeChar_of_lt h
    have hchar : Char.ofNat c.toNat = c := Char.ofNat_toNat c
    rcases escape?_ascii c.toNat h with hnone | hsome
    · rw [hchar] at hnone
      left
      refine ⟨?_, hnone.2⟩
      intro b hb
      rw [hbytes, List.mem_singleton] at hb
      rw [hb, hnone.1]
    · rw [hchar] at hsome
      exact Or.inr ⟨_, hbytes, hsome⟩
  · have hle : 0x80 ≤ c.toNat := by omega
    exact Or.inl ⟨fun b hb => escape?_of_le b (le_of_mem_utf8EncodeChar c hle b hb),
      stringChar_of_le c hle⟩

/-! ## The loop -/

namespace Copying

/-- `written` stands behind the buffer with its escapes, and `pending` needs none. -/
structure Holds (c : Copying) (buffer written pending : String) : Prop where
  start : c.start = written.utf8ByteSize
  escaped : c.buffer = buffer ++ "\x27" ++ String.ofList (written.toList.flatMap stringChar)
  plain : pending.toList.flatMap stringChar = pending.toList

variable {c : Copying} {buffer written pending s : String}

theorem run_plain (bytes rest : List UInt8) (index : Nat) (h : ∀ b ∈ bytes, escape? b = none) :
    c.run s index (bytes ++ rest) = c.run s (index + bytes.length) rest := by
  induction bytes generalizing index with
  | nil => rfl
  | cons b bytes ih =>
    have hb := h b List.mem_cons_self
    have hrest := ih (index + 1) fun b hb => h b (List.mem_cons_of_mem _ hb)
    rw [List.cons_append, run, step, hb]
    simp only [Option.bind_some]
    rw [hrest, List.length_cons]
    congr 1
    omega

theorem run_escape (b : UInt8) (escape : List Char) (rest : List UInt8) (after : String)
    (hb : escape? b = some escape) (hs : s = written ++ pending ++ after)
    (h : c.Holds buffer written pending) :
    c.run s (written ++ pending).utf8ByteSize (b :: rest) =
      run s ((written ++ pending).utf8ByteSize + 1)
        ⟨c.buffer ++ pending ++ String.ofList escape, (written ++ pending).utf8ByteSize + 1⟩ rest := by
  have hslice : slice? s c.start (written ++ pending).utf8ByteSize = some pending := by
    rw [hs, h.start]
    exact slice?_append written pending after
  rw [run, step, hb]
  simp only [hslice, Option.map_some, Option.bind_some]

theorem holds_char (ch : Char) (cs : List Char) (bytes : List UInt8)
    (hs : s = written ++ pending ++ String.ofList (ch :: cs))
    (h : c.Holds buffer written pending) :
    ∃ (c' : Copying) (written' pending' : String), c'.Holds buffer written' pending' ∧
      written' ++ pending' = written ++ pending ++ String.ofList [ch] ∧
      c.run s (written ++ pending).utf8ByteSize (String.utf8EncodeChar ch ++ bytes) =
        c'.run s (written' ++ pending').utf8ByteSize bytes := by
  have hsize : (written ++ pending ++ String.ofList [ch]).utf8ByteSize =
      (written ++ pending).utf8ByteSize + (String.utf8EncodeChar ch).length := by
    rw [String.utf8ByteSize_append, String.length_utf8EncodeChar, ← String.singleton_eq_ofList,
      String.utf8ByteSize_singleton]
  -- A plain character joins what is pending. An escape is written behind it.
  rcases utf8EncodeChar_cases ch with ⟨hnone, hchar⟩ | ⟨b, hbytes, hb⟩
  · have hrun := run_plain (c := c) (s := s) _ bytes (written ++ pending).utf8ByteSize hnone
    refine ⟨c, written, pending ++ String.ofList [ch], ⟨h.start, h.escaped, ?_⟩, ?_, ?_⟩
    · simp [h.plain, hchar]
    · rw [String.append_assoc]
    · rw [hrun, ← String.append_assoc, hsize]
  · have hrun := run_escape b _ bytes _ hb hs h
    refine ⟨⟨c.buffer ++ pending ++ String.ofList (stringChar ch),
      (written ++ pending).utf8ByteSize + 1⟩, written ++ pending ++ String.ofList [ch], "",
      ⟨?_, ?_, rfl⟩, String.append_empty, ?_⟩
    · rw [hsize, hbytes]
      rfl
    · rw [h.escaped]
      simp [h.plain, ← String.toList_inj]
    · rw [hbytes, List.singleton_append, hrun, String.append_empty, hsize, hbytes]
      rfl

theorem holds_run (cs : List Char) (hs : s = written ++ pending ++ String.ofList cs)
    (h : c.Holds buffer written pending) :
    ∃ c' written' pending', c.run s (written ++ pending).utf8ByteSize (utf8Bytes (String.ofList cs)) =
      some c' ∧ c'.Holds buffer written' pending' ∧ s = written' ++ pending' := by
  induction cs generalizing c written pending with
  | nil => exact ⟨c, written, pending, rfl, h, by simpa using hs⟩
  | cons ch cs ih =>
    obtain ⟨c', written', pending', h', hsame, hrun⟩ :=
      holds_char ch cs (utf8Bytes (String.ofList cs)) hs h
    have hs' : s = written' ++ pending' ++ String.ofList cs := by
      rw [hsame, hs, String.append_assoc, String.append_assoc, String.append_assoc,
        ← String.ofList_append]
      rfl
    rw [utf8Bytes_cons, hrun]
    exact ih hs' h'

end Copying

/-! ## The quoted string -/

theorem appendQuoted?_eq (buffer s : String) :
    appendQuoted? buffer s = some (buffer ++ quoteString s) := by
  have hbegin : (Copying.mk (buffer ++ "\x27") 0).Holds buffer "" "" := ⟨rfl, by simp, rfl⟩
  obtain ⟨c, written, pending, hrun, h, hs⟩ :=
    Copying.holds_run (s := s) s.toList (by simp) hbegin
  have hslice : slice? s c.start s.utf8ByteSize = some pending := by
    have hpart := slice?_append written pending ""
    rw [String.append_empty, ← hs, ← h.start] at hpart
    exact hpart
  rw [String.ofList_toList] at hrun
  unfold appendQuoted?
  have hall : Copying.run s 0 ⟨buffer ++ "\x27", 0⟩ (utf8Bytes s) = some c := hrun
  rw [hall, Option.bind_some, hslice, Option.map_some, h.escaped, quoteString, quotedString, hs]
  simp [h.plain, ← String.toList_inj]

/-- The token that stands first in a text, and what follows it. -/
def firstToken? : List Char → Option (Token × List Char)
  | [] => none
  | c :: rest => readToken c rest

theorem firstToken?_quoteString (s : String) (rest : List Char) (h : rest.head? ≠ some '\x27') :
    firstToken? ((quoteString s).toList ++ rest) = some (.string s, rest) := by
  have hread := readToken_string s.toList rest h
  rw [String.ofList_toList] at hread
  rw [quoteString, quotedString, String.toList_ofList, List.cons_append, List.append_assoc]
  exact hread

/-- A quoted string stands for itself and for nothing of what follows it, and every buffer takes it
as it is. -/
theorem quoteString_faithful (s : String) :
    (∀ rest : List Char, rest.head? ≠ some '\x27' →
      firstToken? ((quoteString s).toList ++ rest) = some (.string s, rest)) ∧
    ∀ buffer, appendQuoted? buffer s = some (buffer ++ quoteString s) :=
  ⟨firstToken?_quoteString s, fun buffer => appendQuoted?_eq buffer s⟩

theorem quoteString_faithful_attack :
    firstToken? ((quoteString "\x5c\x27é\x00\x5c; DROP").toList ++ [' ', 'O', 'R']) =
        some (.string "\x5c\x27é\x00\x5c; DROP", [' ', 'O', 'R']) ∧
      appendQuoted? "id = " "\x5c\x27é\x00\x5c; DROP" =
        some ("id = " ++ quoteString "\x5c\x27é\x00\x5c; DROP") :=
  ⟨(quoteString_faithful _).1 [' ', 'O', 'R'] (by decide), (quoteString_faithful _).2 "id = "⟩

end RowStore.Sql
