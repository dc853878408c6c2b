import RowStore.Fault
import RowStore.Store.Executor

/-!
# Work

An operation of a store: it asks an executor, leaves entries in the journal, and succeeds or
fails. What it asked and noted before a failure stays.
-/

namespace RowStore

structure Session (σ : Type) where
  server : σ
  /-- The journal, the oldest entry first. -/
  journal : List Entry

abbrev Work (σ α : Type) := ExceptT Fault (StateM (Session σ)) α

namespace Work

variable {σ α : Type}

/-- One question to the executor, with its answer as a value. -/
def ask (question : σ → α × σ) : Work σ α := fun s =>
  let (answer, server) := question s.server
  (.ok answer, { s with server := server })

def note (e : Entry) : Work σ Unit := fun s => (.ok (), { s with journal := s.journal ++ [e] })

def noteAll (entries : List Entry) : Work σ Unit := fun s =>
  (.ok (), { s with journal := s.journal ++ entries })

/-- Does the work and keeps a failure as a value. -/
def attempt (work : Work σ α) : Work σ (Except Fault α) := fun s =>
  let (result, s) := work s
  (.ok result, s)

def ofExcept (result : Except Fault α) : Work σ α := fun s => (result, s)

end Work

end RowStore
