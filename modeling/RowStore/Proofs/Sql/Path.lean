import Mathlib
import RowStore.Proofs.ColumnName
import RowStore.Proofs.Sql.Buffer
import RowStore.Proofs.Sql.Joined

/-!
# Names and paths

A quoted name ends at its own accent, and a quoted path is its names with a dot between two of
them. Accents in a name, at its ends or next to a dot do not make a server read another name.
-/

namespace RowStore.Sql

open ColumnName (Dotless)

/-! ## Names -/

theorem firstToken?_quoteName (name : String) (rest : List Char) :
    firstToken? ((quoteName name).toList ++ rest) =
      (readName ('\x60' :: rest)).map fun (cs, after) =>
        (.name (String.ofList (name.toList ++ cs)), after) := by
  rw [quoteName, String.toList_ofList, quotedName, List.cons_append, List.append_assoc,
    List.singleton_append, firstToken?, readToken, if_pos rfl, readName_flatMap, Option.map_map]
  rfl

theorem firstToken?_quoteName_iff (name : String) (rest : List Char) :
    firstToken? ((quoteName name).toList ++ rest) = some (.name name, rest) ↔
      rest.head? ≠ some '\x60' := by
  rw [firstToken?_quoteName]
  constructor
  · rintro h accent
    obtain ⟨rest, rfl⟩ := List.head?_eq_some_iff.mp accent
    rw [readName_accent, Option.map_map] at h
    obtain ⟨cs, hread⟩ := of_map_eq_some h fun _ => rfl
    have shorter := readName_length _ _ _ hread
    rw [List.length_cons] at shorter
    omega
  · intro h
    simp only [readName_close rest h, Option.map_some, List.append_nil, String.ofList_toList]

/-! ## Paths -/

/-- Quoted names with a dot between two of them, and what follows the last one. -/
def readPath (cs : List Char) : Option (List String × List Char) :=
  match _h : firstToken? cs with
  | some (.name name, '.' :: rest) =>
    (readPath rest).map fun (names, after) => (name :: names, after)
  | some (.name name, rest) => some ([name], rest)
  | _ => none
termination_by cs.length
decreasing_by
  cases cs with
  | nil => cases _h
  | cons c cs =>
    have shorter := readToken_length c cs _ _ _h
    simp only [List.length_cons] at shorter ⊢
    omega

theorem readPath_last {cs rest : List Char} {name : String}
    (h : firstToken? cs = some (.name name, rest)) (hrest : rest.head? ≠ some '.') :
    readPath cs = some ([name], rest) := by
  rw [readPath]
  split
  · rename_i heq
    obtain ⟨-, rfl⟩ := Prod.mk.inj (Option.some.inj (h.symm.trans heq))
    exact absurd rfl hrest
  · rename_i heq
    cases h.symm.trans heq
    rfl
  · rename_i hnone
    exact absurd h (hnone name rest)

theorem readPath_dot {cs rest : List Char} {name : String}
    (h : firstToken? cs = some (.name name, '.' :: rest)) :
    readPath cs = (readPath rest).map fun (names, after) => (name :: names, after) := by
  rw [readPath]
  split
  · rename_i heq
    cases h.symm.trans heq
    rfl
  · rename_i hdot heq
    cases h.symm.trans heq
    exact absurd rfl (hdot rest)
  · rename_i hnone _
    exact absurd h (hnone name rest)

theorem readPath_quotedNames (p : List Char) (ps : List (List Char)) (rest : List Char)
    (haccent : rest.head? ≠ some '\x60') (hdot : rest.head? ≠ some '.') :
    readPath (['.'].intercalate ((p :: ps).map quotedName) ++ rest) =
      some ((p :: ps).map String.ofList, rest) := by
  have first (p rest : List Char) (h : rest.head? ≠ some '\x60') :
      firstToken? (quotedName p ++ rest) = some (.name (String.ofList p), rest) := by
    have hread := (firstToken?_quoteName_iff (String.ofList p) rest).mpr h
    rwa [quoteName, String.toList_ofList, String.toList_ofList] at hread
  induction ps generalizing p with
  | nil =>
    rw [List.map_singleton, List.map_singleton, List.intercalate_singleton]
    exact readPath_last (first p rest haccent) hdot
  | cons q ps ih =>
    have hfirst := first p ('.' :: (['.'].intercalate ((q :: ps).map quotedName) ++ rest))
      (by simp)
    simp only [List.map_cons, List.intercalate_cons_cons, List.append_assoc, List.cons_append,
      List.nil_append] at hfirst ih ⊢
    rw [readPath_dot hfirst, ih, Option.map_some]

theorem readPath_quotePath (path : String) (rest : List Char) (haccent : rest.head? ≠ some '\x60')
    (hdot : rest.head? ≠ some '.') :
    readPath ((quotePath path).toList ++ rest) = some (pathNames path, rest) := by
  rw [quotePath, String.toList_ofList, pathNames]
  obtain ⟨p, ps, hparts⟩ := List.exists_cons_of_ne_nil (segments_ne_nil path.toList)
  rw [hparts]
  exact readPath_quotedNames p ps rest haccent hdot

/-! ## Parts of a path -/

theorem segments_eq_splitOn (cs : List Char) : segments cs = cs.splitOn '.' := by
  induction cs with
  | nil => rfl
  | cons c cs ih =>
    rw [List.splitOn, List.splitOnP_cons_eq_if_modifyHead, ← List.splitOn, ← ih, segments]
    by_cases hc : c = '.'
    · simp [hc]
    · obtain ⟨part, parts, hparts⟩ := List.exists_cons_of_ne_nil (segments_ne_nil cs)
      simp [hc, hparts]

theorem dot_notMem_segments (cs : List Char) : ∀ part ∈ segments cs, '.' ∉ part := by
  induction cs with
  | nil => simp [segments]
  | cons c cs ih =>
    obtain ⟨first, parts, hparts⟩ := List.exists_cons_of_ne_nil (segments_ne_nil cs)
    rw [hparts, List.forall_mem_cons] at ih
    rw [segments, hparts]
    split
    · simpa using ih
    · rename_i hc
      simpa [Ne.symm hc] using ih

theorem pathNames_eq_iff (path : String) (parts : List String) :
    pathNames path = parts ↔
      parts ≠ [] ∧ (∀ part ∈ parts, Dotless part) ∧ ".".intercalate parts = path := by
  have hdot : ".".toList = ['.'] := rfl
  constructor
  · rintro rfl
    refine ⟨by simpa [pathNames] using segments_ne_nil path.toList, ?_, ?_⟩
    · rw [pathNames, List.forall_mem_map]
      intro part hpart
      rw [Dotless, String.toList_ofList]
      exact dot_notMem_segments _ part hpart
    · rw [← String.toList_inj, String.toList_intercalate, pathNames, List.map_map, hdot,
        segments_eq_splitOn]
      simp [Function.comp_def]
  · rintro ⟨hne, hdotless, rfl⟩
    have hparts : (['.'].intercalate (parts.map String.toList)).splitOn '.' =
        parts.map String.toList :=
      List.splitOn_intercalate '.' (List.forall_mem_map.mpr hdotless) (by simpa using hne)
    rw [pathNames, segments_eq_splitOn, String.toList_intercalate, hdot, hparts, List.map_map]
    simp [Function.comp_def]

/-! ## Quoted names -/

/-- Quoted names end where they were closed and hold what was quoted. A name stands for itself
unless an accent follows. A path stands for the names between its dots, which are the one way to
make it of names without dots, unless an accent or another dot follows. -/
theorem quotedNames_faithful :
    (∀ (name : String) (rest : List Char),
      firstToken? ((quoteName name).toList ++ rest) = some (.name name, rest) ↔
        rest.head? ≠ some '\x60') ∧
    ∀ path : String,
      (∀ parts, pathNames path = parts ↔
        parts ≠ [] ∧ (∀ part ∈ parts, Dotless part) ∧ ".".intercalate parts = path) ∧
      ∀ rest : List Char, rest.head? ≠ some '\x60' → rest.head? ≠ some '.' →
        readPath ((quotePath path).toList ++ rest) = some (pathNames path, rest) :=
  ⟨firstToken?_quoteName_iff, fun path => ⟨pathNames_eq_iff path, readPath_quotePath path⟩⟩

/-- Runs of accents at both ends and next to dots, and a name of nothing. -/
theorem quotedNames_faithful_accents :
    quoteName "\x60\x60a\x60" = "\x60\x60\x60\x60\x60a\x60\x60\x60" ∧
      firstToken? ((quoteName "\x60\x60a\x60").toList ++ [',']) =
        some (.name "\x60\x60a\x60", [',']) ∧
      firstToken? ((quoteName "a").toList ++ ['\x60', 'b', '\x60']) ≠
        some (.name "a", ['\x60', 'b', '\x60']) ∧
      quotePath "\x60.\x60..a" =
        "\x60\x60\x60\x60.\x60\x60\x60\x60.\x60\x60.\x60a\x60" ∧
      readPath ((quotePath "\x60.\x60..a").toList ++ [' ', '(']) =
        some (["\x60", "\x60", "", "a"], [' ', '(']) := by
  obtain ⟨names, paths⟩ := quotedNames_faithful
  refine ⟨rfl, (names _ _).mpr (by decide), mt (names _ _).mp (by decide), rfl, ?_⟩
  exact (paths "\x60.\x60..a").2 [' ', '('] (by decide) (by decide)

end RowStore.Sql
