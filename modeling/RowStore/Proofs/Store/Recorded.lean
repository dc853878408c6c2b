import RowStore.Proofs.Store.Work

/-!
# Executors that keep a record

An executor can be made to write down what it is asked. It answers as before, so the record shows
what reaches it, in which order and how often.
-/

namespace RowStore

variable {σ α β : Type}

/-- What an executor can be asked. -/
inductive Call where
  | select (sql : String)
  | execute (sql : String) (params : List Value)
  | stream (sql : String)
  | ping

structure Recorded (σ : Type) where
  server : σ
  /-- What was asked so far, the first call first. -/
  calls : List Call

def StreamRequest.recorded (r : StreamRequest σ α) : StreamRequest (Recorded σ) α :=
  ⟨fun record =>
    let (s, server) := r.begin record.server
    (s, { record with server := server })⟩

namespace Executor

def recorded (e : Executor σ) : Executor (Recorded σ) where
  select sql record :=
    let (answer, server) := e.select sql record.server
    (answer, ⟨server, record.calls ++ [.select sql]⟩)
  execute sql params record :=
    let (answer, server) := e.execute sql params record.server
    (answer, ⟨server, record.calls ++ [.execute sql params]⟩)
  stream sql record :=
    let (request, server) := e.stream sql record.server
    (request.recorded, ⟨server, record.calls ++ [.stream sql]⟩)
  ping record :=
    let (answer, server) := e.ping record.server
    (answer, ⟨server, record.calls ++ [.ping]⟩)

end Executor

def Store.recorded (db : Store σ) : Store (Recorded σ) := ⟨db.executor.recorded, db.settings⟩

def KeyStore.recorded (kv : KeyStore σ) : KeyStore (Recorded σ) := ⟨kv.store.recorded⟩

/-! ## Questions of a store -/

namespace Store

theorem answer_apply (db : Store σ) (sql : String) (result : Except Fault α) (s : Session σ) :
    ∃ journal, db.answer sql result s = (result, ⟨s.server, journal⟩) := by
  cases result with
  | ok a => exact ⟨_, rfl⟩
  | error fault =>
    unfold answer
    split
    · exact ⟨_, rfl⟩
    · exact ⟨_, rfl⟩

theorem select_apply (db : Store σ) (sql : String) (s : Session σ) :
    ∃ journal, db.select sql s =
      ((db.executor.select sql s.server).1, ⟨(db.executor.select sql s.server).2, journal⟩) := by
  unfold select
  split
  · exact db.answer_apply sql _ ⟨_, _⟩
  · exact db.answer_apply sql _ ⟨_, _⟩

theorem execute_apply (db : Store σ) (sql : String) (params : List Value) (s : Session σ) :
    ∃ journal, db.execute sql params s =
      ((db.executor.execute sql params s.server).1,
        ⟨(db.executor.execute sql params s.server).2, journal⟩) := by
  unfold execute
  split
  · exact db.answer_apply sql _ ⟨_, _⟩
  · exact db.answer_apply sql _ ⟨_, _⟩

end Store

end RowStore
