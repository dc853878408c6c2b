/-!
# Words in texts

The blanks around a word, a word inside a text, and the choice that a word stands for. The words
for choices are in lower-case letters.
-/

namespace RowStore.Text

/-! ## Blanks -/

/-- The code points with the Unicode property `White_Space`. -/
def blankCodePoints : List Nat :=
  [0x09, 0x0A, 0x0B, 0x0C, 0x0D, 0x20, 0x85, 0xA0, 0x1680, 0x2000, 0x2001, 0x2002, 0x2003, 0x2004,
   0x2005, 0x2006, 0x2007, 0x2008, 0x2009, 0x200A, 0x2028, 0x2029, 0x202F, 0x205F, 0x3000]

def isBlank (c : Char) : Bool := blankCodePoints.contains c.toNat

def trimChars (cs : List Char) : List Char :=
  ((cs.dropWhile isBlank).reverse.dropWhile isBlank).reverse

def trim (s : String) : String := String.ofList (trimChars s.toList)

/-- True of the empty text and of one that holds nothing but blanks. -/
def blankOnly (s : String) : Bool := s.toList.all isBlank

/-! ## Texts inside texts -/

/-- True when the characters of `part` stand in `whole` one after the other. -/
def occursIn (part : List Char) : List Char → Bool
  | [] => part.isEmpty
  | c :: rest => part.isPrefixOf (c :: rest) || occursIn part rest

theorem occursIn_iff (part whole : List Char) :
    occursIn part whole = true ↔ part <:+: whole := by
  induction whole with
  | nil => simp [occursIn]
  | cons c rest ih =>
    rw [occursIn, Bool.or_eq_true, ih, List.isPrefixOf_iff_prefix, List.infix_cons_iff]

/-! ## Choices -/

/-- The choice that a word stands for. With `anyCase`, capital letters do as well. -/
def choice? {α : Type} (words : List (String × α)) (anyCase : Bool) (word : String) : Option α :=
  words.lookup (if anyCase then String.ofList (word.toList.map Char.toLower) else word)

end RowStore.Text
