import RowStore.Store.Records

/-!
# Connection options

Where the server is, who logs in, and how the connections and the store on them behave.
-/

namespace RowStore

open Json (Decoder)

structure Options where
  host : Option String
  tcpPort : Nat
  user : Option String
  password : Option String
  database : Option String
  charset : String
  maxConnections : Nat
  /-- How long to wait for a connection, in seconds. -/
  acquireTimeout : Nat
  /-- Rows that a stream holds at most. -/
  streamBuffer : Nat
  settings : Settings
  deriving DecidableEq

namespace Options

def standard : Options where
  host := none
  tcpPort := 3306
  user := none
  password := none
  database := none
  charset := "utf8mb4"
  maxConnections := 10
  acquireTimeout := 30
  streamBuffer := 64
  settings := .standard

def ofLogin (host user database : String) : Options :=
  { standard with host := some host, user := some user, database := some database }

/-- A time in milliseconds is kept in whole seconds. -/
def withAcquireTimeout (o : Options) (milliseconds : Nat) : Options :=
  { o with acquireTimeout := milliseconds / 1000 }

def withSettings (f : Settings → Settings) (o : Options) : Options :=
  { o with settings := f o.settings }

/-- The first thing that is missing or makes no sense. -/
def check (o : Options) : Except Fault Unit :=
  if (o.host.getD "").isEmpty then .error (.misconfigured .hostMissing)
  else if (o.user.getD "").isEmpty then .error (.misconfigured .userMissing)
  else if (o.database.getD "").isEmpty then .error (.misconfigured .databaseMissing)
  else if o.maxConnections = 0 then .error (.misconfigured .noConnections)
  else o.settings.limits.check

/-! ## JSON -/

def textOrNull : Decoder (Option String) := Json.Decoder.optional Json.Decoder.text

def fields : List (Json.Decoder.Field Options) :=
  [.defaulted "host" textOrNull fun s o => { o with host := s },
    .defaulted "port" (Json.Decoder.word 16) fun n o => { o with tcpPort := n },
    .defaulted "user" textOrNull fun s o => { o with user := s },
    .defaulted "password" textOrNull fun s o => { o with password := s },
    .defaulted "database" textOrNull fun s o => { o with database := s },
    .defaulted "charset" Json.Decoder.text fun s o => { o with charset := s },
    .defaulted "maxConnections" (Json.Decoder.word 32) fun n o =>
      { o with maxConnections := n },
    .defaulted "acquireTimeoutSecs" (Json.Decoder.word 64) fun n o =>
      { o with acquireTimeout := n },
    .defaulted "streamBuffer" Json.Decoder.size fun n o => { o with streamBuffer := n },
    .defaulted "logSql" Json.Decoder.flag fun b => withSettings ({ · with logSql := b }),
    .defaulted "debugConnections" Json.Decoder.flag fun b =>
      withSettings ({ · with logConnections := b }),
    .defaulted "planner" Batch.Limits.decoder fun l => withSettings ({ · with limits := l })]

def decoder : Decoder Options := Json.Decoder.record "MysqlOptions" fields standard

/-- Reads options from their description. What is left out has its standard value. -/
def ofJsonText (source : String) : Except Fault Options :=
  match decoder.run source with
  | .ok o => .ok o
  | .error problem => .error (.misconfigured (.malformedOptions problem))

end Options

end RowStore
