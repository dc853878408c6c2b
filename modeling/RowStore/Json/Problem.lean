import RowStore.Number.Layout

/-!
# What can be wrong with a JSON text

A text may break the grammar of JSON, or be well formed and not describe what its reader wants.
`Problem.message` is the wording of each case.
-/

namespace RowStore.Json

inductive Problem where
  -- The grammar.
  | endInValue
  | endInObject
  | endInList
  | endInString
  | valueExpected
  | badLiteral
  | colonExpected
  | objectCommaExpected
  | listCommaExpected
  | trailingComma
  | trailingCharacters
  | keyNotString
  | badNumber
  | numberTooLarge
  | badEscape
  | controlCharacter
  | loneSurrogate
  | brokenSurrogatePair
  | nestedTooDeeply
  -- What a reader wants.
  | mismatch (got want : String)
  | outOfRange (n : Int) (want : String)
  | unknownVariant (name : String) (variants : List String)
  | duplicateField (key : String)
  | missingField (key : String)
  | tooFewElements (found : Nat) (record : String) (fields : Nat)
  | refused (reason : String)
  deriving DecidableEq

def accented (name : String) : String := "`" ++ name ++ "`"

def Problem.message : Problem → String
  | endInValue => "EOF while parsing a value"
  | endInObject => "EOF while parsing an object"
  | endInList => "EOF while parsing a list"
  | endInString => "EOF while parsing a string"
  | valueExpected => "expected value"
  | badLiteral => "expected ident"
  | colonExpected => "expected `:`"
  | objectCommaExpected => "expected `,` or `\x7d`"
  | listCommaExpected => "expected `,` or `]`"
  | trailingComma => "trailing comma"
  | trailingCharacters => "trailing characters"
  | keyNotString => "key must be a string"
  | badNumber => "invalid number"
  | numberTooLarge => "number out of range"
  | badEscape => "invalid escape"
  | controlCharacter => "control character (\\u0000-\\u001F) found while parsing a string"
  | loneSurrogate => "lone leading surrogate in hex escape"
  | brokenSurrogatePair => "unexpected end of hex escape"
  | nestedTooDeeply => "recursion limit exceeded"
  | mismatch got want => "invalid type: " ++ got ++ ", expected " ++ want
  | outOfRange n want => "invalid value: integer " ++ accented (intText n) ++ ", expected " ++ want
  | unknownVariant name variants =>
    "unknown variant " ++ accented name ++ ", expected one of "
      ++ ", ".intercalate (variants.map accented)
  | duplicateField key => "duplicate field " ++ accented key
  | missingField key => "missing field " ++ accented key
  | tooFewElements found record fields =>
    "invalid length " ++ natText found ++ ", expected struct " ++ record ++ " with "
      ++ natText fields ++ " elements"
  | refused reason => reason

end RowStore.Json
