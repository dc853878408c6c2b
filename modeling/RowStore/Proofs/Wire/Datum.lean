import RowStore.Proofs.Calendar.Reading
import RowStore.Proofs.Sql.Insert
import RowStore.Wire.Packet

/-!
# What a server receives

A value reaches the server bound to a placeholder, or as a literal in the text of the statement.
Both mean the same value of SQL, up to the kinds that one of the two ways cannot carry.
-/

namespace RowStore

/-- A value of SQL. -/
inductive Datum where
  | null
  | number (q : ℚ)
  /-- A floating-point number that is infinite or no number. -/
  | notFinite (x : Binary64)
  | text (s : String)
  | bytes (content : List UInt8)
  | moment (t : DateTime)

def Datum.ofFloat (x : Binary64) : Datum := if x.isFinite then .number x.value else .notFinite x

namespace DateTime

/-- The dates and times that a server has: years of four digits and no leap seconds. -/
def Storable (t : DateTime) : Prop := 0 ≤ t.year ∧ t.year ≤ 9999 ∧ t.nanosecond < 1000000000

instance (t : DateTime) : Decidable t.Storable := inferInstanceAs (Decidable (_ ∧ _))

theorem isValid_toMicrosecond (t : DateTime) (h : t.isValid = true) :
    t.toMicrosecond.isValid = true := by
  have hle : t.toMicrosecond.nanosecond ≤ t.nanosecond := Nat.div_mul_le_self _ _
  unfold isValid isTime at h ⊢
  simp only [Bool.and_eq_true, decide_eq_true_eq] at h ⊢
  obtain ⟨hdate, htime, hnano⟩ := h
  exact ⟨hdate, htime, Nat.lt_of_le_of_lt hle hnano⟩

theorem storable_toMicrosecond (t : DateTime) : t.toMicrosecond.Storable ↔ t.Storable := by
  unfold Storable toMicrosecond
  dsimp only
  omega

/-- A date and time as a server takes it, or nothing if there is none like it. -/
def stored? (t : DateTime) : Option Datum :=
  if t.isValid ∧ t.Storable then some (.moment t) else none

end DateTime

/-! ## Parameters -/

namespace Wire

/-- In two's complement unless the type is unsigned. -/
def readInteger (isUnsigned : Bool) (content : List UInt8) : Int :=
  let n := ofLittleEndian content
  if isUnsigned ∨ 2 * n < 256 ^ content.length then n else n - 256 ^ content.length

/-- A date, and a time of day with microseconds as far as there is one. -/
def readMoment? : List UInt8 → Option DateTime
  | y :: y' :: month :: day :: time =>
    let date : DateTime := .midnight (ofLittleEndian [y, y']) month.toNat day.toNat
    match time with
    | [] => some date
    | hour :: minute :: second :: fraction =>
      if fraction.length = 0 ∨ fraction.length = 4 then
        some { date with hour := hour.toNat, minute := minute.toNat, second := second.toNat,
                         nanosecond := ofLittleEndian fraction * 1000 }
      else none
    | _ => none
  | _ => none

def Parameter.datum? (p : Parameter) : Option Datum :=
  match p.content with
  | none => some .null
  | some content =>
    match p.code with
    | 1 | 8 => some (.number (readInteger p.isUnsigned content))
    | 5 => some (.ofFloat (.ofWord (ofLittleEndian content)))
    | 12 => (readMoment? content).bind DateTime.stored?
    | 252 => some (.bytes content)
    | 253 | 254 => (Text.utf8? content).map .text
    | _ => none

end Wire

/-! ## Literals -/

/-- The literal that a server reads in a text that is nothing else. -/
def Sql.literal? (text : String) : Option Sql.Literal :=
  (Sql.tokenize text.toList).bind Sql.readLiteral

/-- What a literal denotes. The two truth values are numbers. -/
def Sql.Literal.datum? : Sql.Literal → Option Datum
  | .null => some .null
  | .bool b => some (.number (if b then 1 else 0))
  | .number digits => (numberValue? digits.toList).map .number
  | .string s => some (.text s)
  | .binary content => some (.bytes content)

namespace Value

/-- What a server receives of a value that is bound to a placeholder. -/
def bound? (place : Nat) (v : Value) : Option Datum :=
  match Wire.Parameter.ofValue place v with
  | .ok p => p.datum?
  | .error _ => none

def denoted? (v : Value) : Option Datum :=
  (Sql.literal? v.literalText).bind Sql.Literal.datum?

/-- What a server makes of a literal for a value of this type: of a number the nearest
floating-point number, of a string a date and time. -/
def readAs? : Value → Datum → Option Datum
  | .float _, .number q => some (.ofFloat (.nearest q))
  | .timestamp _, .text s => (DateTime.read? s.toList).bind DateTime.stored?
  | _, d => some d

/-- What a server receives of a value whose literal stands in the text. -/
def inlined? (v : Value) : Option Datum := v.denoted?.bind v.readAs?

/-- True of the values that both ways carry: no number that is infinite or no number, no date or
time that a server does not have, and of JSON only objects and arrays. -/
def Plain : Value → Prop
  | .float x => x.isFinite = true
  | .timestamp t => t.Storable
  | .json j => j.isStructured = true
  | _ => True

end Value

/-! ## Reading the bytes of a parameter -/

namespace Wire

theorem length_littleEndian (width n : Nat) : (littleEndian width n).length = width := by
  induction width generalizing n with
  | zero => rfl
  | succ width ih => rw [littleEndian, List.length_cons, ih]

theorem ofLittleEndian_littleEndian {width n : Nat} (h : n < 256 ^ width) :
    ofLittleEndian (littleEndian width n) = n := by
  induction width generalizing n with
  | zero =>
    rw [Nat.pow_zero, Nat.lt_one_iff] at h
    rw [h]
    rfl
  | succ width ih =>
    have hrest : n / 256 < 256 ^ width := by
      rw [Nat.div_lt_iff_lt_mul (by decide), ← Nat.pow_succ]
      exact h
    have hcons (b : UInt8) (bs : List UInt8) :
        ofLittleEndian (b :: bs) = b.toNat + 256 * ofLittleEndian bs := rfl
    rw [littleEndian, hcons, ih hrest, UInt8.toNat_ofNat']
    exact Nat.mod_add_div n 256

theorem readInteger_int64 (n : Int64) :
    readInteger false (littleEndian 8 n.toUInt64.toNat) = n.toInt := by
  have hlt : n.toUInt64.toNat < 2 ^ 64 := n.toUInt64.toNat_lt
  have hbits : n.toInt = n.toBitVec.toInt := rfl
  have hnat : n.toBitVec.toNat = n.toUInt64.toNat := rfl
  rw [hbits, BitVec.toInt_eq_toNat_cond, hnat]
  unfold readInteger
  rw [ofLittleEndian_littleEndian (by omega), length_littleEndian]
  simp

theorem utf8?_utf8Bytes (s : String) : Text.utf8? (Text.utf8Bytes s) = some s := by
  have hbytes : (⟨(Text.utf8Bytes s).toArray⟩ : ByteArray) = s.toByteArray := by
    simp [Text.utf8Bytes]
  unfold Text.utf8? String.fromUTF8?
  rw [hbytes, dif_pos s.isValidUTF8]
  rfl

theorem readMoment?_timestampBytes (t : DateTime) (h : t.isValid = true) (hyear : 0 ≤ t.year)
    (hyear' : t.year < 65536) :
    (timestampBytes? t).bind readMoment? = some t.toMicrosecond := by
  simp only [DateTime.isValid, DateTime.isTime, Bool.and_eq_true, decide_eq_true_eq] at h
  obtain ⟨hdate, ⟨⟨hhour, hminute⟩, hsecond⟩, hnano⟩ := h
  obtain ⟨hmonth, hday⟩ := DateTime.day_le hdate
  have hbyte {n : Nat} (hn : n < 256) : (UInt8.ofNat n).toNat = n := UInt8.toNat_ofNat_of_lt' hn
  have hyears : ((ofLittleEndian (littleEndian 2 t.year.toNat) : Nat) : Int) = t.year := by
    rw [ofLittleEndian_littleEndian (by omega), Int.toNat_of_nonneg hyear]
  have hmicros : ofLittleEndian (littleEndian 4 (t.nanosecond / 1000)) = t.nanosecond / 1000 :=
    ofLittleEndian_littleEndian (by omega)
  have htime {fraction : List UInt8} (hfraction : fraction.length = 0 ∨ fraction.length = 4) :
      readMoment? (littleEndian 2 t.year.toNat ++ [UInt8.ofNat t.month, UInt8.ofNat t.day] ++
        [UInt8.ofNat t.hour, UInt8.ofNat t.minute, UInt8.ofNat t.second] ++ fraction) =
      some { t with nanosecond := ofLittleEndian fraction * 1000 } := by
    refine (if_pos hfraction).trans ?_
    rw [hbyte (by omega), hbyte (by omega), hbyte (by omega), hbyte (by omega), hbyte (by omega)]
    exact congrArg (fun year : Int => some { t with
      year := year, nanosecond := ofLittleEndian fraction * 1000 }) hyears
  -- The time of day is there with a fraction, without one, or not at all.
  unfold timestampBytes?
  rw [if_neg (by omega)]
  dsimp only
  split
  · rw [Option.bind_some, htime (Or.inr (length_littleEndian 4 _)), hmicros]
    rfl
  case isFalse hwhole =>
    rw [not_not] at hwhole
    split
    case isTrue hmidnight =>
      have hdate : readMoment? (littleEndian 2 t.year.toNat ++
          [UInt8.ofNat t.month, UInt8.ofNat t.day]) =
          some (.midnight t.year t.month t.day) := by
        refine (congrArg (fun year => some (DateTime.midnight year (UInt8.ofNat t.month).toNat
          (UInt8.ofNat t.day).toNat)) hyears).trans ?_
        rw [hbyte (by omega), hbyte (by omega)]
      rw [Option.bind_some, hdate]
      simp only [DateTime.midnight, DateTime.toMicrosecond, hwhole, hmidnight, Nat.zero_div,
        Nat.zero_mul]
    case isFalse =>
      rw [Option.bind_some, ← List.append_nil (_ ++ [_, _, _]), htime (Or.inl rfl)]
      simp only [DateTime.toMicrosecond, hwhole, Nat.zero_div, Nat.zero_mul, ofLittleEndian,
        List.foldr_nil]

theorem stored?_timestampBytes (t : DateTime) (h : t.isValid = true) :
    (timestampBytes? t).bind (fun content => (readMoment? content).bind DateTime.stored?) =
      t.toMicrosecond.stored? := by
  by_cases hyear : t.year < 0 ∨ 65536 ≤ t.year
  · have hnone : ¬ t.toMicrosecond.Storable := by
      unfold DateTime.Storable
      intro hstorable
      have hsame : t.toMicrosecond.year = t.year := rfl
      omega
    rw [timestampBytes?, if_pos hyear, DateTime.stored?, if_neg (fun hboth => hnone hboth.2)]
    rfl
  · rw [← Option.bind_assoc, readMoment?_timestampBytes t h (by omega) (by omega)]
    rfl

end Wire

/-! ## Values both ways -/

theorem Sql.literal?_literalText (v : Value) : literal? v.literalText = some v.literal := by
  unfold literal? Value.literalText
  rw [(Sql.Literal.reads_text v.literal (readable_literal v)).tokenize_eq, Option.bind_some,
    readLiteral_tokens]

theorem Json.length_stringText (s : String) : s.toList.length < (stringText s).toList.length := by
  have hchar (c : Char) : 1 ≤ (stringChar c).length := by
    unfold stringChar
    split <;> (try split) <;> simp
  have hle (cs : List Char) : cs.length ≤ (cs.flatMap stringChar).length := by
    induction cs with
    | nil => exact Nat.le_refl 0
    | cons c cs ih =>
      rw [List.flatMap_cons, List.length_append, List.length_cons]
      have := hchar c
      omega
  have := hle s.toList
  rw [stringText, String.toList_ofList, List.length_cons, List.length_append]
  omega

namespace Value

variable (place : Nat)

theorem bound?_int (n : Int64) : (int n).bound? place = some (.number n.toInt) := by
  have hread : (int n).bound? place = some (.number
      (Wire.readInteger false (Wire.littleEndian 8 n.toUInt64.toNat))) := rfl
  rw [hread, Wire.readInteger_int64]

theorem bound?_float (x : Binary64) : (float x).bound? place = some (.ofFloat x) := by
  have hread : (float x).bound? place = some (.ofFloat
      (.ofWord (Wire.ofLittleEndian (Wire.littleEndian 8 x.word)))) := rfl
  rw [hread, Wire.ofLittleEndian_littleEndian x.word_lt, Binary64.ofWord_word]

theorem bound?_text (s : String) : (text s).bound? place = some (.text s) := by
  have hread : (text s).bound? place = (Text.utf8? (Text.utf8Bytes s)).map .text := rfl
  rw [hread, Wire.utf8?_utf8Bytes]
  rfl

theorem bound?_json (j : Json) : (json j).bound? place = some (.text j.text) :=
  bound?_text place j.text

theorem bound?_timestamp (t : DateTime) (h : t.isValid = true) :
    (timestamp t).bound? place = t.toMicrosecond.stored? := by
  rw [← Wire.stored?_timestampBytes t h]
  simp only [bound?, Wire.Parameter.ofValue]
  cases Wire.timestampBytes? t <;> rfl

theorem denoted?_eq (v : Value) : v.denoted? = v.literal.datum? := by
  unfold denoted?
  rw [Sql.literal?_literalText, Option.bind_some]

theorem inlined?_eq (v : Value) : v.inlined? = v.literal.datum?.bind v.readAs? := by
  rw [inlined?, denoted?_eq]

theorem inlined?_int (n : Int64) : (int n).inlined? = some (.number n.toInt) := by
  rw [inlined?_eq, literal, Sql.Literal.datum?, numberValue?_intText]
  rfl

theorem inlined?_float {x : Binary64} (h : x.isFinite = true) :
    (float x).inlined? = some (.ofFloat x) := by
  obtain ⟨q, hq, hfinite, hvalue⟩ := x.exists_numberValue?_text h
  have hsame : Datum.ofFloat (.nearest q) = .ofFloat x := by
    rw [Datum.ofFloat, Datum.ofFloat, if_pos hfinite, if_pos h, hvalue]
  rw [inlined?_eq, literal, if_pos h, Sql.Literal.datum?, hq, ← hsame]
  rfl

theorem inlined?_not_finite {x : Binary64} (h : x.isFinite = false) :
    (float x).inlined? = some .null := by
  rw [inlined?_eq, literal, if_neg (by simp [h])]
  rfl

theorem inlined?_timestamp (t : DateTime) (h : t.isValid = true) (hstorable : t.Storable) :
    (timestamp t).inlined? = t.toMicrosecond.stored? := by
  have hread : DateTime.read? (t.toMicrosecond.chars ' ') = some t.toMicrosecond :=
    t.toMicrosecond.read?_chars (t.isValid_toMicrosecond h)
      (Or.inl (t.storable_toMicrosecond.mpr hstorable).2.2)
  rw [inlined?_eq, literal, Sql.Literal.datum?, Option.bind_some, readAs?, String.toList_ofList,
    hread, Option.bind_some]

theorem inlined?_json (j : Json) : (json j).inlined? = j.literal.datum? := by
  rw [inlined?_eq, literal]
  cases j.literal.datum? <;> rfl

theorem datum?_json_iff (j : Json) :
    j.literal.datum? = some (.text j.text) ↔ j.isStructured = true := by
  cases j with
  | null => simp [Json.literal, Sql.Literal.datum?, Json.isStructured]
  | bool b => simp [Json.literal, Sql.Literal.datum?, Json.isStructured]
  | number n => simp [Json.literal, Sql.Literal.datum?, Json.isStructured]
  | string s =>
    -- The text of a string has its quotes as well, so it is longer than the string.
    have hlength := Json.length_stringText s
    have hne : s ≠ Json.stringText s := fun h => by
      rw [← h] at hlength
      exact Nat.lt_irrefl _ hlength
    simp [Json.literal, Sql.Literal.datum?, Json.isStructured, Json.text, hne]
  | array items => simp [Json.literal, Sql.Literal.datum?, Json.isStructured]
  | object members => simp [Json.literal, Sql.Literal.datum?, Json.isStructured]

theorem float_both_ways_iff (x : Binary64) :
    (∃ d, (float x).bound? place = some d ∧ (float x).inlined? = some d) ↔
      x.isFinite = true := by
  cases h : x.isFinite with
  | true => exact iff_of_true ⟨_, bound?_float place x, inlined?_float h⟩ rfl
  | false =>
    refine iff_of_false ?_ Bool.false_ne_true
    rintro ⟨d, hbound, hinlined⟩
    rw [bound?_float, Datum.ofFloat, h] at hbound
    rw [inlined?_not_finite h, ← hbound] at hinlined
    cases hinlined

theorem timestamp_both_ways_iff (t : DateTime) (hvalid : t.isValid = true) :
    (∃ d, (timestamp t).bound? place = some d ∧ (timestamp t).inlined? = some d) ↔
      t.Storable := by
  by_cases h : t.Storable
  · have hstored : t.toMicrosecond.stored? = some (.moment t.toMicrosecond) :=
      if_pos ⟨t.isValid_toMicrosecond hvalid, t.storable_toMicrosecond.mpr h⟩
    refine iff_of_true ⟨.moment t.toMicrosecond, ?_, ?_⟩ h
    · rw [bound?_timestamp place t hvalid, hstored]
    · rw [inlined?_timestamp t hvalid h, hstored]
  · have hstored : t.toMicrosecond.stored? = none :=
      if_neg fun hboth => h (t.storable_toMicrosecond.mp hboth.2)
    refine iff_of_false ?_ h
    rintro ⟨d, hbound, -⟩
    rw [bound?_timestamp place t hvalid, hstored] at hbound
    cases hbound

theorem json_both_ways_iff (j : Json) :
    (∃ d, (json j).bound? place = some d ∧ (json j).inlined? = some d) ↔
      j.isStructured = true := by
  rw [bound?_json, inlined?_json, ← datum?_json_iff]
  simp

/-- Bound or inlined, a value means the same to the server exactly if it is plain. -/
theorem bound?_eq_inlined?_iff (place : Nat) (v : Value)
    (hv : ∀ t, v = .timestamp t → t.isValid = true) :
    (∃ d, v.bound? place = some d ∧ v.inlined? = some d) ↔ v.Plain := by
  cases v with
  | null => exact iff_of_true ⟨.null, rfl, inlined?_eq null⟩ trivial
  | int n => exact iff_of_true ⟨_, bound?_int place n, inlined?_int n⟩ trivial
  | float x => exact float_both_ways_iff place x
  | bool b =>
    have hbound : (bool b).bound? place = some (.number (if b then 1 else 0)) := by
      cases b <;> rfl
    exact iff_of_true ⟨_, hbound, inlined?_eq (bool b)⟩ trivial
  | text s => exact iff_of_true ⟨_, bound?_text place s, inlined?_eq (text s)⟩ trivial
  | timestamp t => exact timestamp_both_ways_iff place t (hv t rfl)
  | json j => exact json_both_ways_iff place j
  | blob content => exact iff_of_true ⟨.bytes content, rfl, inlined?_eq (blob content)⟩ trivial

theorem bound?_eq_inlined?_moment :
    ∃ d, (timestamp ⟨2024, 2, 29, 23, 59, 59, 123456789⟩).bound? 1 = some d ∧
      (timestamp ⟨2024, 2, 29, 23, 59, 59, 123456789⟩).inlined? = some d := by
  refine (bound?_eq_inlined?_iff 1 _ ?_).mpr ⟨by decide, by decide, by decide⟩
  rintro t h
  obtain rfl := timestamp.inj h
  rfl

/-- The JSON null is a text where it is bound, and NULL where it is inlined. -/
theorem bound?_ne_inlined?_json_null :
    (json .null).bound? 1 = some (.text "null") ∧ (json .null).inlined? = some .null :=
  ⟨bound?_json 1 .null, inlined?_json .null⟩

end Value

end RowStore
