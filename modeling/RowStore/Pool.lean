import RowStore.Options
import RowStore.Store.Keys
import RowStore.Wire.Client

/-!
# Pools

The connections to one server, opened after its options were found good and closed at the end.
-/

namespace RowStore

/-! ## Character sets -/

namespace Wire

/-- The character sets that a connection can ask for, by the names that the server has for
them. -/
def charsets : List String :=
  ["armscii8", "ascii", "big5", "binary", "cp1250", "cp1251", "cp1256", "cp1257", "cp850", "cp852",
    "cp866", "cp932", "dec8", "eucjpms", "euckr", "gb18030", "gb2312", "gbk", "geostd8", "greek",
    "hebrew", "hp8", "keybcs2", "koi8r", "koi8u", "latin1", "latin2", "latin5", "latin7", "macce",
    "macroman", "sjis", "swe7", "tis620", "ucs2", "ujis", "utf16", "utf16le", "utf32", "utf8",
    "utf8mb4"]

/-- The name of a character set is given in small letters. -/
def isCharset (name : String) : Bool := charsets.contains name

end Wire

/-! ## Opening and closing -/

structure Pool where
  options : Options
  deriving DecidableEq

namespace Pool

def readyEntry (o : Options) : Entry :=
  ⟨.debug, "mysql pool ready",
    [("host", .text (o.host.getD "")), ("database", .text (o.database.getD "")),
      ("max_connections", .number o.maxConnections)]⟩

def openedEntry : Entry := ⟨.debug, "mysql connection opened", []⟩

def closedEntry : Entry := ⟨.debug, "mysql pool closed", []⟩

/-- The first connection. Time has passed before it is tried, so none is left of no time. -/
def firstConnection (o : Options) (dial : Except String Unit) : Except Unconnected Unit :=
  if o.acquireTimeout = 0 then .error .timedOut
  else if !Wire.isCharset o.charset then .error (.unknownCharset o.charset)
  else
    match dial with
    | .ok () => .ok ()
    | .error reason => .error (.undialled reason)

/-- Opens a pool. `dial` says whether the server can be reached, or why not. -/
def connect (o : Options) (dial : Except String Unit) : Except Fault (Pool × List Entry) := do
  o.check
  match firstConnection o dial with
  | .error cause => throw (.unreachable (.noPool cause))
  | .ok () =>
    let opened := if o.settings.logConnections then [openedEntry] else []
    return (⟨o⟩, opened ++ [readyEntry o])

def account (p : Pool) : Wire.Account :=
  ⟨p.options.user.getD "", p.options.database, p.options.password⟩

/-- The client of the pool. Its streams hold at least one row. -/
def client {τ : Type} (p : Pool) (server : Wire.Server τ) : Wire.Client τ :=
  ⟨server, p.account, max p.options.streamBuffer 1⟩

def store {τ : Type} (p : Pool) (server : Wire.Server τ) :
    Except Fault (Store (Wire.Connection τ)) :=
  Store.ofExecutor (p.client server).executor p.options.settings

/-- Closes every connection. Later statements fail. -/
def close {τ : Type} (p : Pool) : Work (Wire.Connection τ) Unit := do
  Work.ask fun c => ((), c.close)
  if p.options.settings.logConnections then Work.note closedEntry

end Pool

end RowStore
