import RowStore.Json.Place
import RowStore.Number.Reader
import RowStore.Sql.Literal
import RowStore.Text.Utf8

/-!
# What can go wrong, and what is noted

Every failure is a cause; `Fault.message` is its wording. A failure that comes from outside with
a text of its own is `reported`. The journal has the entries that operations leave for whoever
watches them.
-/

namespace RowStore

/-- A query, a patch, a batch or a schema that has no statement. -/
inductive Invalid where
  | emptyField
  | reservedField (name : String)
  | unknownComparison (text : String)
  | malformedQuery (problem : Json.Problem)
  | blankQueryTable
  | comparedList (comparison : Comparison) (field : String)
  | offsetOutsideSelect
  | emptyPatch (table : String)
  | blankInsertTable
  | structuredField (field : String)
  | blankSchemaTable
  | badEngine (engine : String)
  | blankTable
  | missingId
  | reported (text : String)

inductive Misconfigured where
  | zeroLimit
  | thresholdAbovePacket (threshold packet : Nat)
  | hostMissing
  | userMissing
  | databaseMissing
  | noConnections
  | malformedOptions (problem : Json.Problem)
  | reported (text : String)

/-- Why a pool has no connection to begin with. -/
inductive Unconnected where
  | timedOut
  | unknownCharset (charset : String)
  | undialled (reason : String)

inductive Unreachable where
  | noPool (cause : Unconnected)
  | reported (text : String)

/-- A cell or parameter that cannot be converted. -/
inductive Unconvertible where
  | badJson (column : String) (misread : Json.Misread)
  | reported (text : String)

/-- The bytes of a cell that do not spell a value of the declared type. -/
inductive Undecodable where
  | notText (flaw : Text.Utf8Flaw)
  | notNumber (flaw : NumberFlaw)

/-- A statement that the connection could not carry. -/
inductive Unsent where
  | closed
  /-- The year of a parameter, which has this place, does not fit. -/
  | yearOutOfRange (place : Nat) (t : DateTime)

inductive Undescribed where
  | missingColumn (column : String)
  | unknownType (column declared : String)
  | reported (text : String)

inductive Unsupported where
  | increment (table id : String)
  | reported (text : String)

/-- An answer of the server that is not what the statement asked for. -/
inductive Unexpected where
  | noCount
  | negativeCount (n : Int64)
  | badCountText (text : String)
  | badCount (value : Value)
  | keyNotText
  | idMissing
  | valueMissing
  | reported (text : String)

inductive Fault where
  | invalid (cause : Invalid)
  | misconfigured (cause : Misconfigured)
  | unreachable (cause : Unreachable)
  | unconvertible (cause : Unconvertible)
  | execution (text : String)
  /-- A batch stopped: some statements ran, the next one failed. -/
  | stopped (completed total : Nat) (cause : Fault)
  | undescribed (cause : Undescribed)
  | unsupported (cause : Unsupported)
  | unexpected (cause : Unexpected)
  | refused (code : Nat) (state text : String)
  /-- A cell of the column with this number is not of the declared type. -/
  | undecodable (column : Nat) (cause : Undecodable)
  | unsent (cause : Unsent)

/-! ## Wording -/

def Invalid.message : Invalid → String
  | emptyField => "field name must not be empty"
  | reservedField name =>
    "field name " ++ Text.inspect name ++ " contains the reserved sequence \"_dot_\""
  | unknownComparison text => "unknown filter operator " ++ Text.inspect text
  | malformedQuery problem => "invalid query: " ++ problem.message
  | blankQueryTable => "query table must not be empty"
  | comparedList comparison field =>
    "operator " ++ comparison.text ++ " cannot be applied to a list on field " ++
      Text.inspect field
  | offsetOutsideSelect => "OFFSET is only supported for SELECT"
  | emptyPatch table => "update of " ++ Text.inspect table ++ " has an empty patch"
  | blankInsertTable => "insert table must not be empty"
  | structuredField field =>
    "field " ++ Text.inspect field ++
      " holds a JSON object/array; serialize it before planning the insert"
  | blankSchemaTable => "schema table must not be empty"
  | badEngine engine => "invalid storage engine `" ++ engine ++ "`"
  | blankTable => "table name must not be empty"
  | missingId => "every updated row needs an id"
  | reported text => text

def Misconfigured.message : Misconfigured → String
  | zeroLimit => "planner limits must be greater than zero"
  | thresholdAbovePacket threshold packet =>
    "split threshold " ++ natText threshold ++ " exceeds max packet size " ++ natText packet
  | hostMissing => "host is required"
  | userMissing => "user is required"
  | databaseMissing => "database is required"
  | noConnections => "max_connections must be greater than zero"
  | malformedOptions problem => "invalid MySQL options: " ++ problem.message
  | reported text => text

def Unconnected.message : Unconnected → String
  | timedOut => "pool timed out while waiting for an open connection"
  | unknownCharset charset => "error with configuration: unsupported MySQL charset: " ++ charset
  | undialled reason => "error communicating with database: " ++ reason

def Unreachable.message : Unreachable → String
  | noPool cause => "Failed to create MySQL pool: " ++ cause.message
  | reported text => text

def Unconvertible.message : Unconvertible → String
  | badJson column misread => "column `" ++ column ++ "` holds invalid JSON: " ++ misread.message
  | reported text => text

def Undecodable.message : Undecodable → String
  | notText ⟨valid, some width⟩ =>
    "invalid utf-8 sequence of " ++ natText width ++ " bytes from index " ++ natText valid
  | notText ⟨valid, none⟩ => "incomplete utf-8 byte sequence from index " ++ natText valid
  | notNumber flaw => flaw.message

def Unsent.message : Unsent → String
  | closed => "attempted to acquire a connection on a closed pool"
  | yearOutOfRange place t =>
    "error occurred while encoding a value: Encoding argument $" ++ natText place ++
      " failed: NaiveDateTime out of range for Mysql: " ++ String.ofList t.dateChars

def Undescribed.message : Undescribed → String
  | missingColumn column => "DESCRIBE row is missing the `" ++ column ++ "` column"
  | unknownType column declared => "Unknown mysql field type " ++ column ++ " " ++ declared
  | reported text => text

def Unsupported.message : Unsupported → String
  | increment table id =>
    "MysqlKeyValueDb::increment(" ++ Sql.quotePath table ++ ", " ++ id ++ ")"
  | reported text => text

def Unexpected.message : Unexpected → String
  | noCount => "count query returned no rows"
  | negativeCount n => "negative row count " ++ intText n.toInt
  | badCountText text => "invalid row count `" ++ text ++ "`"
  | badCount value => "invalid row count " ++ value.inspect
  | keyNotText => "key is not valid UTF-8"
  | idMissing => "row has no id"
  | valueMissing => "row has no value"
  | reported text => text

def Fault.message : Fault → String
  | invalid cause => "Validation error: " ++ cause.message
  | misconfigured cause => "Configuration error: " ++ cause.message
  | unreachable cause => "Connection error: " ++ cause.message
  | unconvertible cause => "Parameter conversion error: " ++ cause.message
  | execution text => "SQL execution error: " ++ text
  | stopped completed total cause =>
    "Bulk insert failed after " ++ natText completed ++ " of " ++ natText total ++
      " statements: " ++ cause.message
  | undescribed cause => "Schema error: " ++ cause.message
  | unsupported cause => "Unimplemented feature: " ++ cause.message
  | unexpected cause => "Other database error: " ++ cause.message
  | refused code state text =>
    "error returned from database: " ++ natText code ++ " (" ++ state ++ "): " ++ text
  | undecodable column cause =>
    "error occurred while decoding column " ++ natText column ++ ": " ++ cause.message
  | unsent cause => cause.message

/-- True when some statements of a batch ran. -/
def Fault.isPartial : Fault → Bool
  | stopped _ _ _ => true
  | _ => false

/-! ## The journal -/

inductive Level where
  | debug
  | info
  | warning
  | error
  deriving DecidableEq

inductive Detail where
  | number (n : Nat)
  | text (s : String)
  deriving DecidableEq

structure Entry where
  level : Level
  message : String
  details : List (String × Detail)
  deriving DecidableEq

end RowStore
