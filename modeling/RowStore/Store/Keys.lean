import RowStore.Store.Records

/-!
# The key-value store

Byte strings under text keys, in tables with the columns `id` and `v`. Values are bound to
parameters; keys that are looked up stand in the statement as literals.
-/

namespace RowStore

structure KeyStore (σ : Type) where
  store : Store σ

namespace KeyStore

variable {σ : Type}

/-! ## Entries from records -/

/-- The key of a row. Bytes have to be text; a number is its digits. -/
def keyOf (r : Record) : Except Fault String :=
  match r.get? "id" with
  | some (.text s) => .ok s
  | some (.blob content) =>
    match Text.utf8? content with
    | some s => .ok s
    | none => .error (.unexpected .keyNotText)
  | some (.int n) => .ok (intText n.toInt)
  | _ => .error (.unexpected .idMissing)

/-- The bytes of a row. -/
def valueOf (r : Record) : Except Fault (List UInt8) :=
  match r.get? "v" with
  | some (.blob content) => .ok content
  | some (.text s) => .ok (Text.utf8Bytes s)
  | _ => .error (.unexpected .valueMissing)

def entryOf (r : Record) : Except Fault (String × List UInt8) := do
  let key ← keyOf r
  let value ← valueOf r
  return (key, value)

/-! ## Tables -/

def dropTable (kv : KeyStore σ) (table : String) : Work σ Unit := kv.store.dropTable table

def createTable (kv : KeyStore σ) (table : String) (drop : Bool) : Work σ Unit := do
  if drop then kv.dropTable table
  let name ← Work.ofExcept (Store.checkedTable table)
  let _ ← kv.store.execute
    ("CREATE TABLE " ++ name ++ " (`id` VARCHAR(64) PRIMARY KEY, `v` LONGBLOB NOT NULL)") []

def ping (kv : KeyStore σ) : Work σ Unit := kv.store.ping

/-! ## Entries -/

/-- The entries of those keys that are there, in the order of the server. -/
def entries (kv : KeyStore σ) (table : String) (ids : List String) :
    Work σ (List (String × List UInt8)) := do
  if ids.isEmpty then return []
  let rows ← kv.store.records ((Query.ofIds table ids).select ["id", "v"])
  Work.ofExcept (rows.mapM entryOf)

/-- Removes keys and returns how many there were. -/
def remove (kv : KeyStore σ) (table : String) (ids : List String) : Work σ UInt64 := do
  kv.store.executeAffected (← Work.ofExcept (Query.ofIds table ids).toDelete)

/-- Runs the same statement for the entries that are left, up to the first failure. -/
def saveFrom (kv : KeyStore σ) (sql : String) (completed total : Nat) :
    List (String × List UInt8) → Work σ Unit
  | [] => pure ()
  | (key, value) :: rest => do
    match ← Work.attempt (kv.store.execute sql [.text key, .blob value]) with
    | .ok _ => kv.saveFrom sql (completed + 1) total rest
    | .error fault =>
      if completed = 0 then throw fault
      throw (.stopped completed total fault)

/-- Stores entries one by one, each in place of what its key had before. -/
def save (kv : KeyStore σ) (table : String) (batch : List (String × List UInt8)) :
    Work σ Unit := do
  if batch.isEmpty then return
  let name ← Work.ofExcept (Store.checkedTable table)
  kv.saveFrom ("REPLACE INTO " ++ name ++ " (`id`, `v`) VALUES (?, ?)") 0 batch.length batch

def count (kv : KeyStore σ) (table : String) : Work σ UInt64 := kv.store.count (.ofTable table)

/-! ## Streams -/

/-- Rows of some columns. Without a limit, or with the limit zero, there is none. -/
def stream (kv : KeyStore σ) (table : String) (columns : List String) (limit : Option UInt64) :
    Work σ (StreamRequest σ Record) :=
  kv.store.stream (((Query.ofTable table).select columns).withLimit (limit.getD 0))

def streamKeys (kv : KeyStore σ) (table : String) (limit : Option UInt64) :
    Work σ (StreamRequest σ String) := do
  return (← kv.stream table ["id"] limit).map keyOf

def streamValues (kv : KeyStore σ) (table : String) (limit : Option UInt64) :
    Work σ (StreamRequest σ (List UInt8)) := do
  return (← kv.stream table ["v"] limit).map valueOf

def streamEntries (kv : KeyStore σ) (table : String) (limit : Option UInt64) :
    Work σ (StreamRequest σ (String × List UInt8)) := do
  return (← kv.stream table ["id", "v"] limit).map entryOf

/-- Values are bytes, so there is nothing to add to. -/
def increment (_ : KeyStore σ) (table id : String) (_ : Int64) : Work σ Int64 :=
  throw (.unsupported (.increment table id))

end KeyStore

end RowStore
