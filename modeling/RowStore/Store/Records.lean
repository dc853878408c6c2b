import RowStore.Batch.Plan
import RowStore.Number.Reader
import RowStore.Query.Statement
import RowStore.Schema.Definition
import RowStore.Schema.Description
import RowStore.Store.Work

/-!
# The record store

Records of a database, read, saved and changed through an executor. Whatever can be refused is
refused before the executor is asked anything.
-/

namespace RowStore

inductive SaveMethod where
  /-- As new rows. -/
  | insert
  /-- As new rows that replace those with the same key. -/
  | upsert
  /-- As changes of the rows with the same id. -/
  | update
  deriving DecidableEq

def SaveMethod.words : List (String × SaveMethod) :=
  [("insert", insert), ("upsert", upsert), ("update", update)]

/-! ## Settings -/

structure Settings where
  /-- Whether each statement, and each failure of one, is noted. -/
  logSql : Bool
  /-- Whether checks of the connection and open streams are noted. -/
  logConnections : Bool
  limits : Batch.Limits
  deriving DecidableEq

namespace Settings

def standard : Settings := ⟨false, false, .standard⟩

def decoder : Json.Decoder Settings :=
  Json.Decoder.record "DbConfig"
    [.defaulted "logSql" Json.Decoder.flag fun b s => { s with logSql := b },
      .defaulted "debugConnections" Json.Decoder.flag fun b s =>
        { s with logConnections := b },
      .defaulted "planner" Batch.Limits.decoder fun l s => { s with limits := l }]
    standard

end Settings

/-! ## Stores -/

structure Store (σ : Type) where
  executor : Executor σ
  settings : Settings

namespace Store

variable {σ : Type}

/-- A store needs limits that make sense. -/
def ofExecutor (executor : Executor σ) (settings : Settings) : Except Fault (Store σ) := do
  settings.limits.check
  return ⟨executor, settings⟩

/-! ## Statements as they are -/

def debugEntry (message : String) (details : List (String × Detail)) : Entry :=
  ⟨.debug, message, details⟩

def failureEntry (sql : String) (fault : Fault) : Entry :=
  ⟨.error, "statement failed: " ++ sql, [("error", .text fault.message)]⟩

/-- An answer of the executor to a statement. A failure is noted before it is passed on. -/
def answer {α : Type} (db : Store σ) (sql : String) (result : Except Fault α) : Work σ α := do
  match result with
  | .ok value => return value
  | .error fault =>
    if db.settings.logSql then Work.note (failureEntry sql fault)
    throw fault

def ping (db : Store σ) : Work σ Unit := do
  let result ← Work.ask db.executor.ping
  if db.settings.logConnections then
    Work.note <| match result with
      | .ok () => debugEntry "connection check ok" []
      | .error fault => debugEntry "connection check failed" [("error", .text fault.message)]
  Work.ofExcept result

def select (db : Store σ) (sql : String) : Work σ ResultSet := do
  if db.settings.logSql then Work.note (debugEntry sql [])
  let result ← Work.ask (db.executor.select sql)
  db.answer sql result

def execute (db : Store σ) (sql : String) (params : List Value) : Work σ Outcome := do
  if db.settings.logSql then
    Work.note (debugEntry sql [("params", .number params.length)])
  let result ← Work.ask (db.executor.execute sql params)
  db.answer sql result

/-! ## Reading -/

/-- The records of a query. One without fields returns an empty record for each row. -/
def records (db : Store σ) (q : Query) : Work σ (List Record) := do
  match ← Work.ofExcept q.toSelect with
  | none => return []
  | some statement =>
    let result ← db.select statement.text
    return if q.selectsNothing then result.rows.map fun _ => .empty else result.toRecords

/-- The number in the first row of a count. -/
def countOf (result : ResultSet) : Except Fault UInt64 :=
  match result.rows.head?.bind (·.cell Query.countColumn) with
  | none => .error (.unexpected .noCount)
  | some (.int n) =>
    if 0 ≤ n.toInt then .ok n.toUInt64 else .error (.unexpected (.negativeCount n))
  | some (.text s) =>
    match readUInt64 s.toList with
    | .ok n => .ok n
    | .error _ => .error (.unexpected (.badCountText s))
  | some value => .error (.unexpected (.badCount value))

def count (db : Store σ) (q : Query) : Work σ UInt64 := do
  match ← Work.ofExcept q.toCount with
  | none => return 0
  | some statement =>
    let result ← db.select statement.text
    Work.ofExcept (countOf result)

def stream (db : Store σ) (q : Query) : Work σ (StreamRequest σ Record) := do
  match ← Work.ofExcept q.toSelect with
  | none => return .ofStream .empty
  | some statement =>
    if db.settings.logSql then Work.note (debugEntry ("stream: " ++ statement.text) [])
    if db.settings.logConnections then
      Work.note (debugEntry "opening streaming connection" [("table", .text q.table)])
    let rows ← Work.ask (db.executor.stream statement.text)
    return if q.selectsNothing then rows.map fun _ => .ok .empty else rows

/-- The records with the given ids, in the order of the server. -/
def recordsWithIds (db : Store σ) (table : String) (ids : List String) : Work σ (List Record) :=
  if ids.isEmpty then pure [] else db.records (.ofIds table ids)

/-! ## Saving -/

/-- The change of one row, or `none` for a record that has nothing but its id. -/
def updateStatement (table : String) (r : Record) : Except Fault (Option String) := do
  match r.get? "id" with
  | none | some .null => throw (.invalid .missingId)
  | some id =>
    let patch := r.erase "id"
    if patch.isEmpty then return none
    let statement ← ((Query.ofTable table).filterEq "id" (.value id)).toUpdate patch
    return statement.map Sql.Statement.text

def updateStatements (table : String) (rows : List Record) : Except Fault (List String) := do
  let statements ← rows.mapM (updateStatement table)
  return statements.filterMap id

/-- The statements that save a batch, and what was noticed in making them. -/
def saveStatements (limits : Batch.Limits) (table : String) (rows : List Record) :
    SaveMethod → Except Fault (List String × List Entry)
  | .insert => (fun p => (p.statements, p.entries)) <$> Batch.plan limits .insert table rows
  | .upsert => (fun p => (p.statements, p.entries)) <$> Batch.plan limits .replace table rows
  | .update => (·, []) <$> updateStatements table rows

def stoppedEntry (completed total : Nat) : Entry :=
  ⟨.error, "batch stopped after a failed statement",
    [("completed", .number completed), ("total", .number total)]⟩

/-- Runs the statements that are left of a batch, in order, up to the first failure. -/
def executeFrom (db : Store σ) (completed total : Nat) (affected : UInt64) :
    List String → Work σ UInt64
  | [] => pure affected
  | sql :: rest => do
    match ← Work.attempt (db.execute sql []) with
    | .ok outcome => db.executeFrom (completed + 1) total (affected + outcome.affected) rest
    | .error fault =>
      if completed = 0 then throw fault
      Work.note (stoppedEntry completed total)
      throw (.stopped completed total fault)

/-- Saves a batch and returns the number of affected rows. Statements that ran before a failure
are not taken back. -/
def save (db : Store σ) (table : String) (rows : List Record) (method : SaveMethod) :
    Work σ UInt64 := do
  if rows.isEmpty then return 0
  let (statements, entries) ← Work.ofExcept
    (saveStatements db.settings.limits table (rows.map Record.stringify) method)
  Work.noteAll entries
  db.executeFrom 0 statements.length 0 statements

/-! ## Changing and removing -/

/-- Runs a statement that may be missing because it would touch no row. -/
def executeAffected (db : Store σ) (statement : Option Sql.Statement) : Work σ UInt64 := do
  match statement with
  | none => return 0
  | some statement =>
    let outcome ← db.execute statement.text []
    return outcome.affected

/-- Sets the fields of a patch in every row of a query. -/
def patch (db : Store σ) (q : Query) (patch : Record) : Work σ UInt64 := do
  db.executeAffected (← Work.ofExcept (q.toUpdate patch.stringify))

def remove (db : Store σ) (q : Query) : Work σ UInt64 := do
  db.executeAffected (← Work.ofExcept q.toDelete)

def removeIds (db : Store σ) (table : String) (ids : List String) : Work σ UInt64 :=
  if ids.isEmpty then pure 0 else db.remove (.ofIds table ids)

/-! ## Tables -/

/-- The quoted name of a table that has one. -/
def checkedTable (table : String) : Except Fault String :=
  if Text.blankOnly table then .error (.invalid .blankTable) else .ok (Sql.quotePath table)

def dropTable (db : Store σ) (table : String) : Work σ Unit := do
  let name ← Work.ofExcept (checkedTable table)
  let _ ← db.execute ("DROP TABLE IF EXISTS " ++ name) []

/-- Creates a table, perhaps in place of one that is there. -/
def createTable (db : Store σ) (schema : Schema) (options : TableOptions) (drop : Bool) :
    Work σ Unit := do
  let definition ← Work.ofExcept (schema.toDefinition options)
  if drop then db.dropTable schema.table
  let _ ← db.execute definition.text []

/-- The text in the first cell of a row, unless it is empty. -/
def tableName? (r : ResultRow) : Option String :=
  let name? := match r.cellAt 0 with
    | some (.text s) => some s
    | some (.blob content) => Text.utf8? content
    | _ => none
  name?.filter fun s => !s.isEmpty

def tables (db : Store σ) : Work σ (List String) := do
  let result ← db.select "SHOW TABLES"
  return result.rows.filterMap tableName?

/-- The schema of a table that is there. -/
def schema (db : Store σ) (table : String) : Work σ Schema := do
  let name ← Work.ofExcept (checkedTable table)
  let result ← db.select ("DESCRIBE " ++ name)
  let columns ← Work.ofExcept (result.rows.mapM ColumnDescription.ofRow)
  Work.ofExcept (Schema.ofDescription table columns)

end Store

end RowStore
