import RowStore.Column
import RowStore.Proofs.Number.Value
import RowStore.Proofs.Sql.Reading

/-!
# Declared types

The declared type of a column begins with a word, and a number in parentheses may follow it. Both
are found whatever stands behind them.
-/

namespace RowStore

open Sql (isLetters)
open Text (isAsciiDigit isBlank digitsValue)

structure DeclaredType where
  base : String
  width : Option Nat
  deriving DecidableEq

namespace DeclaredType

def widthChars : Option Nat → List Char
  | none => []
  | some n => '(' :: (natChars n ++ [')'])

def text (t : DeclaredType) : String := t.base ++ String.ofList (widthChars t.width)

end DeclaredType

/-! ## Blanks, letters and digits -/

def AllBlank (cs : List Char) : Prop := ∀ c ∈ cs, isBlank c = true

def AllAlpha (cs : List Char) : Prop := ∀ c ∈ cs, c.isAlpha = true

theorem isLetters_iff (cs : List Char) : isLetters cs = true ↔ cs ≠ [] ∧ AllAlpha cs := by
  cases cs <;> simp [isLetters, AllAlpha]

theorem not_isAlpha_of_isBlank {c : Char} (h : isBlank c = true) : c.isAlpha = false := by
  rw [← Bool.not_eq_true, Sql.isAlpha_iff]
  simp only [isBlank, Text.blankCodePoints, List.contains_eq_mem, decide_eq_true_eq, List.mem_cons,
    List.not_mem_nil, or_false] at h
  omega

theorem not_isBlank_of_isAlpha {c : Char} (h : c.isAlpha = true) : isBlank c = false := by
  by_contra hblank
  rw [Bool.not_eq_false] at hblank
  rw [not_isAlpha_of_isBlank hblank] at h
  cases h

theorem trimChars_of_allAlpha {cs : List Char} (h : AllAlpha cs) : Text.trimChars cs = cs := by
  have hdrop : ∀ ds : List Char, AllAlpha ds → ds.dropWhile isBlank = ds := by
    intro ds hds
    rw [List.dropWhile_eq_self_iff]
    intro hne
    rw [not_isBlank_of_isAlpha (hds _ (List.getElem_mem hne))]
    decide
  have hreverse : AllAlpha cs.reverse := fun c hc => h c (List.mem_reverse.mp hc)
  rw [Text.trimChars, hdrop cs h, hdrop _ hreverse, List.reverse_reverse]

theorem eq_zeros_of_digitsValue {ds : List Char} (h : ∀ d ∈ ds, isAsciiDigit d = true)
    (hvalue : digitsValue ds = 0) : ds = List.replicate ds.length '0' := by
  induction ds using List.reverseRecOn with
  | nil => rfl
  | append_singleton ds d ih =>
    have hd := (isAsciiDigit_iff d).mp (h d (by simp))
    rw [Text.digitsValue_append_one] at hvalue
    obtain rfl : d = '0' := Char.toNat_inj.mp (by change d.toNat = 48; omega)
    have hfront := ih (fun d hd => h d (List.mem_append_left _ hd)) (by omega)
    rw [List.length_append, List.length_singleton, List.replicate_succ', ← hfront]

theorem digitsValue_eq_one_iff {ds : List Char} (h : ∀ d ∈ ds, isAsciiDigit d = true) :
    digitsValue ds = 1 ↔ ∃ n, ds = List.replicate n '0' ++ ['1'] := by
  constructor
  · intro hvalue
    rcases List.eq_nil_or_concat ds with rfl | ⟨front, d, rfl⟩
    · cases hvalue
    · rw [List.concat_eq_append] at h hvalue ⊢
      have hd := (isAsciiDigit_iff d).mp (h d (by simp))
      rw [Text.digitsValue_append_one] at hvalue
      obtain rfl : d = '1' := Char.toNat_inj.mp (by change d.toNat = 49; omega)
      have hfront := eq_zeros_of_digitsValue (fun d hd => h d (List.mem_append_left _ hd))
        (by omega)
      exact ⟨front.length, by rw [← hfront]⟩
  · rintro ⟨n, rfl⟩
    rw [Text.digitsValue_append_one, digitsValue_zeros]
    rfl

/-! ## The number in parentheses -/

namespace Column

/-- Blanks, an opening parenthesis, blanks, digits, blanks, a closing parenthesis, and anything. -/
def HoldsNumber (cs ds : List Char) : Prop :=
  ∃ a b c rest, AllBlank a ∧ AllBlank b ∧ AllBlank c ∧
    cs = a ++ '(' :: (b ++ (ds ++ (c ++ ')' :: rest)))

theorem allBlank_takeWhile (cs : List Char) : AllBlank (cs.takeWhile isBlank) :=
  fun _ hc => List.mem_takeWhile_imp hc

theorem holdsNumber_of_lengthDigits? {cs ds : List Char} (h : lengthDigits? cs = some ds) :
    IsDigits ds ∧ HoldsNumber cs ds := by
  unfold lengthDigits? at h
  split at h
  · rename_i inner hinner
    dsimp only at h
    split at h
    · rename_i rest hrest
      split at h
      · cases h
      · rename_i hne
        obtain rfl := Option.some.inj h
        -- The text is what was taken and what was left, four times.
        have hcs := List.takeWhile_append_dropWhile (p := isBlank) (l := cs)
        have hopen := List.takeWhile_append_dropWhile (p := isBlank) (l := inner)
        have hdigits := List.takeWhile_append_dropWhile (p := isAsciiDigit)
          (l := inner.dropWhile isBlank)
        have hclose := List.takeWhile_append_dropWhile (p := isBlank)
          (l := (inner.dropWhile isBlank).dropWhile isAsciiDigit)
        rw [hinner] at hcs
        rw [hrest] at hclose
        refine ⟨⟨by simpa using hne, fun d hd => List.mem_takeWhile_imp hd⟩, _, _, _, rest,
          allBlank_takeWhile cs, allBlank_takeWhile inner,
          allBlank_takeWhile ((inner.dropWhile isBlank).dropWhile isAsciiDigit), ?_⟩
        rw [hclose, hdigits, hopen, hcs]
    · cases h
  · cases h

theorem lengthDigits?_of_holdsNumber {cs ds : List Char} (hds : IsDigits ds)
    (h : HoldsNumber cs ds) : lengthDigits? cs = some ds := by
  obtain ⟨a, b, c, rest, ha, hb, hc, rfl⟩ := h
  -- Each run of blanks or digits ends where the next one begins.
  have hafter : ∀ d ∈ (c ++ ')' :: rest).head?, isAsciiDigit d = false := by
    intro d hd
    cases c with
    | nil =>
      obtain rfl : ')' = d := by simpa using hd
      decide
    | cons e c =>
      obtain rfl : e = d := by simpa using hd
      by_contra hdigit
      rw [Bool.not_eq_false] at hdigit
      have hblank := hc e List.mem_cons_self
      rw [isBlank_of_isAsciiDigit hdigit] at hblank
      cases hblank
  have hdigit : ∀ d ∈ (ds ++ (c ++ ')' :: rest)).head?, isBlank d = false := by
    obtain ⟨d, ds, rfl⟩ := List.exists_cons_of_ne_nil hds.1
    simpa using isBlank_of_isAsciiDigit (hds.2 d List.mem_cons_self)
  have hopen := (span_append isBlank a ('(' :: (b ++ (ds ++ (c ++ ')' :: rest)))) ha
    (by simp; decide)).2
  have hinner := (span_append isBlank b _ hb hdigit).2
  obtain ⟨htake, hdrop⟩ := span_append isAsciiDigit ds _ hds.2 hafter
  have hclose := (span_append isBlank c (')' :: rest) hc (by simp; decide)).2
  have hne : ds.isEmpty = false := by simpa using hds.1
  unfold lengthDigits?
  rw [hopen]
  simp only [hinner, htake, hdrop, hclose, hne]
  rfl

theorem lengthDigits?_eq_some_iff {cs ds : List Char} :
    lengthDigits? cs = some ds ↔ IsDigits ds ∧ HoldsNumber cs ds :=
  ⟨holdsNumber_of_lengthDigits?, fun h => lengthDigits?_of_holdsNumber h.1 h.2⟩

theorem lengthDigits?_of_notMem {cs : List Char} (h : '(' ∉ cs) : lengthDigits? cs = none := by
  cases hds : lengthDigits? cs with
  | none => rfl
  | some ds =>
    obtain ⟨-, a, b, c, rest, -, -, -, rfl⟩ := lengthDigits?_eq_some_iff.mp hds
    exact absurd (by simp) h

theorem ofDeclared_eq (name : String) {a base after : List Char} (ha : AllBlank a)
    (hne : base ≠ []) (hbase : AllAlpha base) (hafter : ∀ c ∈ after.head?, c.isAlpha = false) :
    ofDeclared name (String.ofList (a ++ (base ++ after))) =
      ⟨name, String.ofList (base.map Char.toUpper), (lengthDigits? after).bind width?⟩ := by
  have hhead : ∀ c ∈ (base ++ after).head?, isBlank c = false := by
    obtain ⟨c, base, rfl⟩ := List.exists_cons_of_ne_nil hne
    simpa using not_isBlank_of_isAlpha (hbase c List.mem_cons_self)
  have hblank := (span_append isBlank a _ ha hhead).2
  obtain ⟨htake, hdrop⟩ := span_append Char.isAlpha base after hbase hafter
  have hempty : base.isEmpty = false := by simpa using hne
  unfold ofDeclared
  simp only [String.toList_ofList, hblank, htake, hdrop, hempty]
  rw [if_neg (by decide), ofType, String.toList_ofList, trimChars_of_allAlpha hbase]

/-! ## Columns of truth values -/

def truthTypes : List String := truthIntegerTypes ++ truthBitTypes

theorem holdsTruth_iff (c : Column) :
    c.holdsTruth = true ↔ c.length = some 1 ∧ c.typeName ∈ truthTypes := by
  simp [holdsTruth, truthTypes, -Bool.decide_or]

theorem truth_eq_notApplicable_iff (c : Column) (cell : RawCell) :
    c.truth cell = .notApplicable ↔ c.holdsTruth = false := by
  unfold truth holdsTruth
  by_cases hlength : c.length = some 1
  · rw [hlength]
    cases truthBitTypes.contains c.typeName <;> cases truthIntegerTypes.contains c.typeName <;>
      cases cell <;> simp
  · simp [hlength]

theorem bind_width?_eq_one_iff {ds : Option (List Char)} :
    ds.bind width? = some 1 ↔ ∃ cs, ds = some cs ∧ digitsValue cs = 1 := by
  rw [Option.bind_eq_some_iff]
  refine exists_congr fun cs => and_congr_right fun _ => ?_
  unfold width?
  split
  · exact Option.some_inj
  · rename_i hlarge
    have hsize : 1 < UInt32.size := by decide
    constructor
    · rintro ⟨⟩
    · intro hone
      omega

/-- One of the types of truth values in any letter case, and behind it the number one in
parentheses, perhaps with zeros before it, with blanks around each part, and then anything. -/
def DeclaresTruth (cs : List Char) : Prop :=
  ∃ a base b c n d rest, AllBlank a ∧ AllAlpha base ∧ AllBlank b ∧ AllBlank c ∧ AllBlank d ∧
    String.ofList (base.map Char.toUpper) ∈ truthTypes ∧
    cs = a ++ (base ++ (b ++ '(' :: (c ++ (List.replicate n '0' ++ ['1'] ++ (d ++ ')' :: rest)))))

theorem ofDeclared_cases (name declared : String) :
    (ofDeclared name declared).length = none ∨ ∃ a base after, AllBlank a ∧ base ≠ [] ∧
      AllAlpha base ∧ (∀ c ∈ after.head?, c.isAlpha = false) ∧
        declared = String.ofList (a ++ (base ++ after)) := by
  have hblank := List.takeWhile_append_dropWhile (p := isBlank) (l := declared.toList)
  have hword := List.takeWhile_append_dropWhile (p := Char.isAlpha)
    (l := declared.toList.dropWhile isBlank)
  rcases eq_or_ne ((declared.toList.dropWhile isBlank).takeWhile Char.isAlpha) []
    with hempty | hne
  · left
    unfold ofDeclared
    simp only [hempty]
    rfl
  · right
    refine ⟨_, _, (declared.toList.dropWhile isBlank).dropWhile Char.isAlpha,
      allBlank_takeWhile declared.toList, hne, fun _ hc => List.mem_takeWhile_imp hc, ?_, ?_⟩
    · intro c hc
      have hstop := List.head?_dropWhile_not Char.isAlpha (declared.toList.dropWhile isBlank)
      rw [Option.mem_def.mp hc] at hstop
      exact hstop
    · rw [hword, hblank, String.ofList_toList]

theorem declaresTruth_of_holdsTruth {name declared : String}
    (h : (ofDeclared name declared).holdsTruth = true) : DeclaresTruth declared.toList := by
  rw [holdsTruth_iff] at h
  rcases ofDeclared_cases name declared with hlength | ⟨a, base, after, ha, hne, hbase, hafter, rfl⟩
  · rw [hlength] at h
    cases h.1
  · rw [ofDeclared_eq name ha hne hbase hafter, bind_width?_eq_one_iff] at h
    obtain ⟨⟨ds, hds, hone⟩, htype⟩ := h
    obtain ⟨hdigits, b, c, d, rest, hb, hc, hd, rfl⟩ := lengthDigits?_eq_some_iff.mp hds
    obtain ⟨n, rfl⟩ := (digitsValue_eq_one_iff hdigits.2).mp hone
    exact ⟨a, base, b, c, n, d, rest, ha, hbase, hb, hc, hd, htype, String.toList_ofList⟩

theorem holdsTruth_of_declaresTruth (name : String) {declared : String}
    (h : DeclaresTruth declared.toList) : (ofDeclared name declared).holdsTruth = true := by
  obtain ⟨a, base, b, c, n, d, rest, ha, hbase, hb, hc, hd, htype, htext⟩ := h
  have hne : base ≠ [] := by
    rintro rfl
    exact absurd htype (by decide)
  have hafter : ∀ e ∈ (b ++ '(' :: (c ++ (List.replicate n '0' ++ ['1'] ++
      (d ++ ')' :: rest)))).head?, e.isAlpha = false := by
    intro e he
    cases b with
    | nil =>
      obtain rfl : '(' = e := by simpa using he
      decide
    | cons f b =>
      obtain rfl : f = e := by simpa using he
      exact not_isAlpha_of_isBlank (hb f List.mem_cons_self)
  have hones : IsDigits (List.replicate n '0' ++ ['1']) := by
    refine ⟨by simp, fun d hd => ?_⟩
    rcases List.mem_append.mp hd with hd | hd
    · exact all_replicate_zero n d hd
    · obtain rfl := List.mem_singleton.mp hd
      decide
  rw [← String.ofList_toList (s := declared), htext, ofDeclared_eq name ha hne hbase hafter,
    holdsTruth_iff, bind_width?_eq_one_iff]
  exact ⟨⟨_, lengthDigits?_of_holdsNumber hones ⟨b, c, d, rest, hb, hc, hd, rfl⟩,
    (digitsValue_eq_one_iff hones.2).mpr ⟨n, rfl⟩⟩, htype⟩

theorem holdsTruth_ofDeclared_iff (name declared : String) :
    (ofDeclared name declared).holdsTruth = true ↔ DeclaresTruth declared.toList :=
  ⟨declaresTruth_of_holdsTruth, holdsTruth_of_declaresTruth name⟩

end Column

end RowStore
