import RowStore.Store.Executor
import RowStore.Wire.Cell
import RowStore.Wire.Parameter

/-!
# The client of a server

An executor over a connection. The connection is opened with the first statement or check.
Statements without parameters are sent as their text; rows arrive as text either way.
-/

namespace RowStore.Wire

structure Account where
  user : String
  database : Option String
  password : Option String
  deriving DecidableEq

inductive Command where
  | login (account : Account)
  | query (sql : String)
  | execute (sql : String) (params : List Parameter)

inductive Reply where
  | done (affected insertId : UInt64)
  | refused (code : Nat) (state text : String)
  | rows (columns : List ColumnInfo) (rows : List (List RawBytes))

/-- A server with its state. A login has no reply that matters. -/
structure Server (τ : Type) where
  login : Account → τ → τ
  run : Command → τ → Reply × τ

structure Connection (τ : Type) where
  server : τ
  loggedIn : Bool
  closed : Bool

namespace Connection

def fresh {τ : Type} (server : τ) : Connection τ := ⟨server, false, false⟩

def close {τ : Type} (c : Connection τ) : Connection τ := { c with closed := true }

end Connection

structure Client (τ : Type) where
  server : Server τ
  account : Account
  /-- Rows that a stream holds at most. -/
  buffer : Nat

namespace Client

variable {τ : Type}

/-- An open connection. A closed one stays closed. -/
def acquire (client : Client τ) (c : Connection τ) : Except Fault (Connection τ) :=
  if c.closed then .error (.unsent .closed)
  else if c.loggedIn then .ok c
  else .ok { c with server := client.server.login client.account c.server, loggedIn := true }

def run (client : Client τ) (command : Command) (c : Connection τ) : Reply × Connection τ :=
  let (reply, server) := client.server.run command c.server
  (reply, { c with server := server })

def select (client : Client τ) (sql : String) (c : Connection τ) :
    Except Fault ResultSet × Connection τ :=
  match client.acquire c with
  | .error fault => (.error fault, c)
  | .ok c =>
    let (reply, c) := client.run (.query sql) c
    match reply with
    | .done _ _ => (.ok .empty, c)
    | .refused code state text => (.error (.refused code state text), c)
    | .rows columns rows => (resultSet columns rows, c)

/-- The number of rows that a statement touched. A key of zero is none. -/
def outcome : Reply → Except Fault Outcome
  | .done affected insertId => .ok ⟨affected, if insertId = 0 then none else some insertId⟩
  | .refused code state text => .error (.refused code state text)
  | .rows _ _ => .ok ⟨0, none⟩

def execute (client : Client τ) (sql : String) (params : List Value) (c : Connection τ) :
    Except Fault Outcome × Connection τ :=
  match client.acquire c with
  | .error fault => (.error fault, c)
  | .ok c =>
    match Parameter.ofValues params with
    | .error fault => (.error fault, c)
    | .ok params =>
      let command := if params.isEmpty then .query sql else .execute sql params
      let (reply, c) := client.run command c
      (outcome reply, c)

/-- What a reply delivers to a stream. -/
def feed : Reply → List Item
  | .done _ _ => []
  | .refused code state text => [.error (.refused code state text)]
  | .rows columns rows => rows.map (item columns)

/-- Sends a statement and feeds its rows to a stream. -/
def beginStream (client : Client τ) (sql : String) (c : Connection τ) :
    Stream Record × Connection τ :=
  match client.acquire c with
  | .error fault => (.ofItems client.buffer [.error fault], c)
  | .ok c =>
    let (reply, c) := client.run (.query sql) c
    (.ofItems client.buffer (feed reply), c)

def stream (client : Client τ) (sql : String) (c : Connection τ) :
    StreamRequest (Connection τ) Record × Connection τ :=
  (⟨client.beginStream sql⟩, c)

def ping (client : Client τ) (c : Connection τ) : Except Fault Unit × Connection τ :=
  match client.acquire c with
  | .error fault => (.error fault, c)
  | .ok c => (.ok (), c)

def executor (client : Client τ) : Executor (Connection τ) :=
  ⟨client.select, client.execute, client.stream, client.ping⟩

end Client

end RowStore.Wire
