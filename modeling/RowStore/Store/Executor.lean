import RowStore.Flow.Stream
import RowStore.ResultSet

/-!
# Executors

What runs statements. An executor has a state of its own, so an answer may depend on everything
that it was asked before.
-/

namespace RowStore

/-! ## Requests for streams -/

/-- A stream that nobody has read from yet has not sent its statement either. The statement is
sent when the first value is asked for, and never if the stream is given up before. -/
structure StreamRequest (σ α : Type) where
  begin : σ → Stream α × σ

namespace StreamRequest

variable {σ α β : Type}

/-- A stream that needs no statement. -/
def ofStream (s : Stream α) : StreamRequest σ α := ⟨fun server => (s, server)⟩

def map (r : StreamRequest σ α) (f : α → Except Fault β) : StreamRequest σ β :=
  ⟨fun server =>
    let (s, server) := r.begin server
    (s.map f, server)⟩

end StreamRequest

/-! ## Statements and their answers -/

/-- The outcome of a statement that returns no rows. -/
structure Outcome where
  affected : UInt64
  /-- The key that the server made up for a new row, if it did. -/
  insertId : Option UInt64
  deriving DecidableEq

structure Executor (σ : Type) where
  /-- Runs a statement that returns rows. Columns have the names of the server. -/
  select : String → σ → Except Fault ResultSet × σ
  /-- Runs a statement that returns none, with values for its parameters. -/
  execute : String → List Value → σ → Except Fault Outcome × σ
  /-- Asks for a statement whose rows come one by one, under the names of their fields. -/
  stream : String → σ → StreamRequest σ Record × σ
  ping : σ → Except Fault Unit × σ

end RowStore
