import Mathlib
import RowStore.Wire.Client
import RowStore.Store.Records
import RowStore.Proofs.Flow.Collecting
import RowStore.Proofs.Store.Recorded

/-!
# All together or one by one

The records of a query can be had all together or as a stream. Over the client of a server both make
the same of the reply: the same records in the same order, or the same first failure.
-/

namespace RowStore

open RowStore.Stream (gather Gathering Side)

namespace Stream

variable {α : Type}

/-- All values of a gathering: those that are known, or those that are there with all to come. -/
def Gathering.finish (g : Gathering α) : Option (Except Fault (List α)) :=
  match g.result with
  | some result => some result
  | none => g.stream.collect.map ((g.values ++ ·) <$> ·)

theorem Gathering.finish_eq {g : Gathering α} {all : Except Fault (List α)} (h : g.Expects all) :
    g.finish = some all := by
  unfold finish
  cases known : g.result with
  | some result => rw [h.known result known]
  | none =>
    rw [collect_eq h.free]
    exact congrArg some (h.missing known)

/-- Collects a stream while its pump and the consumer act in the order of `sides`. When that order
is at its end, the consumer waits for what is left. -/
def collectAlong (sides : List Side) (s : Stream α) : Option (Except Fault (List α)) :=
  ((Gathering.ofStream s).run sides).finish

theorem collectAlong_eq (sides : List Side) {s : Stream α} (free : s.pump.Free) :
    s.collectAlong sides = some (gather s.finish s.pump.upcoming) :=
  Gathering.finish_eq (Gathering.expects_run (Gathering.expects_ofStream free) sides)

theorem gather_map (f : Record → α) (items : List Item) :
    gather (fun r => .ok (f r)) items = List.map f <$> gather .ok items := by
  induction items with
  | nil => rfl
  | cons item rest ih =>
    rw [gather_cons, gather_cons, ih]
    cases item with
    | error fault => rfl
    | ok r => cases gather .ok rest <;> rfl

end Stream

/-! ## What a reply is worth -/

namespace Wire

/-- The records in a reply: all of its rows, or the failure of the first that cannot be read. -/
def Reply.records : Reply → Except Fault (List Record)
  | .done _ _ => .ok []
  | .refused code state text => .error (.refused code state text)
  | .rows columns found => found.mapM (item columns)

theorem toRecords_resultSet (infos : List ColumnInfo) (rows : List (List RawBytes)) :
    ResultSet.toRecords <$> resultSet infos rows = rows.mapM (item infos) := by
  have decoded : rows.mapM (item infos) =
      List.map (ResultRow.recordOfCells (infos.map (·.toColumn.name))) <$>
        rows.mapM (cells infos) := by
    induction rows with
    | nil => rfl
    | cons row rest ih =>
      rw [List.mapM_cons, List.mapM_cons, ih]
      unfold item
      cases cells infos row with
      | error fault => rfl
      | ok values => cases rest.mapM (cells infos) <;> rfl
  rw [decoded]
  unfold resultSet
  cases rows with
  | nil => rfl
  | cons row rest =>
    cases (row :: rest).mapM (cells infos) with
    | error fault => rfl
    | ok values =>
      refine congrArg Except.ok ?_
      simp [ResultSet.toRecords, ResultSet.ofRows, ResultRow.toRecord, ResultRow.ofCells]

theorem gather_feed (reply : Reply) : gather .ok (Client.feed reply) = reply.records := by
  cases reply with
  | done | refused => rfl
  | rows columns rows =>
    unfold gather Client.feed Reply.records
    rw [List.mapM_map]
    refine congrArg rows.mapM (funext fun row => ?_)
    change (item columns row >>= Except.ok) = item columns row
    cases item columns row <;> rfl

namespace Client

variable {τ : Type}

/-- The records that a statement has at the server, over a connection that may have to be opened. -/
def recordsOf (client : Client τ) (sql : String) (c : Connection τ) : Except Fault (List Record) :=
  client.acquire c >>= fun c => (client.run (.query sql) c).1.records

theorem toRecords_select (client : Client τ) (sql : String) (c : Connection τ) :
    ResultSet.toRecords <$> (client.select sql c).1 = client.recordsOf sql c := by
  unfold select recordsOf
  cases client.acquire c with
  | error fault => rfl
  | ok c =>
    change _ = (client.run (.query sql) c).1.records
    cases hreply : (client.run (.query sql) c).1 with
    | done | refused => simp only [hreply]; rfl
    | rows columns rows =>
      simp only [hreply]
      exact toRecords_resultSet columns rows

theorem beginStream_cases (client : Client τ) (sql : String) (c : Connection τ) :
    ∃ items, (client.beginStream sql c).1 = .ofItems client.buffer items ∧
      gather .ok items = client.recordsOf sql c ∧
      (client.beginStream sql c).2 = (client.select sql c).2 := by
  unfold beginStream recordsOf select
  cases client.acquire c with
  | error fault => exact ⟨_, rfl, rfl, rfl⟩
  | ok c =>
    refine ⟨_, rfl, gather_feed _, ?_⟩
    simp only
    cases (client.run (.query sql) c).1 <;> rfl

end Client

end Wire

/-! ## The records of a query -/

namespace Query

/-- A query without fields has an empty record for each row. -/
def shown (q : Query) (rows : List Record) : List Record :=
  if q.selectsNothing then rows.map fun _ => .empty else rows

def shownStream {σ : Type} (q : Query) (request : StreamRequest σ Record) :
    StreamRequest σ Record :=
  if q.selectsNothing then request.map fun _ => .ok .empty else request

end Query

namespace Wire.Client

variable {τ : Type}

/-- The records that a query has at the server. One that no row can pass has none and asks for
nothing. -/
def recordsOfQuery (client : Client τ) (q : Query) (c : Connection τ) :
    Except Fault (List Record) := do
  match ← q.toSelect with
  | none => return []
  | some statement => q.shown <$> client.recordsOf statement.text c

theorem shownStream_cases (client : Client τ) (q : Query) (sql : String) (c : Connection τ) :
    ∃ s : Stream Record,
      (q.shownStream (client.stream sql c).1).begin c = (s, (client.select sql c).2) ∧
      s.pump.Free ∧ gather s.finish s.pump.upcoming = q.shown <$> client.recordsOf sql c := by
  obtain ⟨items, begun, worth, same⟩ := client.beginStream_cases sql c
  have begun : (client.stream sql c).1.begin c =
      (.ofItems client.buffer items, (client.select sql c).2) := Prod.ext begun same
  have free := Pump.free_ofItems client.buffer items
  have all (finish : Record → Except Fault Record) :
      gather finish (Pump.ofItems client.buffer items).upcoming = gather finish items :=
    Stream.gather_upToFailure finish items
  unfold Query.shownStream Query.shown
  split
  · refine ⟨(Stream.ofItems client.buffer items).map fun _ => .ok .empty, ?_, free, ?_⟩
    · simp only [StreamRequest.map, begun]
    · rw [← worth, ← Stream.gather_map]
      exact all _
  · refine ⟨Stream.ofItems client.buffer items, begun, free, ?_⟩
    rw [← worth]
    exact (all _).trans (id_map _).symm

end Wire.Client

namespace Store

section

variable {σ : Type} (db : Store σ) {q : Query}

def streamed (q : Query) (read : Stream Record → Option (Except Fault (List Record))) :
    Work σ (Option (List Record)) := do
  let request ← db.stream q
  let s ← Work.ask request.begin
  match read s with
  | none => return none
  | some result => some <$> Work.ofExcept result

theorem streamed_apply {read : Stream Record → Option (Except Fault (List Record))}
    {request : StreamRequest σ Record} {s s' : Session σ} {begun : Stream Record} {server : σ}
    {result : Except Fault (List Record)} (h : db.stream q s = (.ok request, s'))
    (begins : request.begin s'.server = (begun, server)) (reads : read begun = some result) :
    db.streamed q read s = (some <$> result, { s' with server := server }) := by
  have asked : Work.ask request.begin s' = (.ok begun, { s' with server := server }) := by
    simp [Work.ask, begins]
  unfold streamed
  rw [Work.bind_ok _ h, Work.bind_ok _ asked, reads]
  cases result <;> rfl

theorem stream_apply {statement : Sql.Statement} (h : q.toSelect = .ok (some statement))
    (s : Session σ) :
    ∃ journal, db.stream q s =
      (.ok (q.shownStream (db.executor.stream statement.text s.server).1),
        ⟨(db.executor.stream statement.text s.server).2, journal⟩) := by
  unfold stream
  rw [Work.bind_ofExcept_ok _ h]
  by_cases sql : db.settings.logSql <;> by_cases connections : db.settings.logConnections
  all_goals
    simp only [sql, connections]
    exact ⟨_, rfl⟩

theorem records_apply {statement : Sql.Statement} (h : q.toSelect = .ok (some statement))
    (s : Session σ) :
    ∃ journal, db.records q s =
      (q.shown <$> ResultSet.toRecords <$> (db.executor.select statement.text s.server).1,
        ⟨(db.executor.select statement.text s.server).2, journal⟩) := by
  obtain ⟨journal, asked⟩ := db.select_apply statement.text s
  refine ⟨journal, ?_⟩
  unfold records
  rw [Work.bind_ofExcept_ok _ h]
  simp only [Work.bind_apply, asked]
  cases (db.executor.select statement.text s.server).1 with
  | error fault => rfl
  | ok result =>
    refine Prod.ext (congrArg Except.ok ?_) rfl
    unfold Query.shown
    split
    · rw [ResultSet.toRecords, List.map_map]
      rfl
    · rfl

end

variable {τ : Type} (client : Wire.Client τ) (settings : Settings) (q : Query)
  (s : Session (Wire.Connection τ))

theorem records_client :
    ((Store.mk client.executor settings).records q s).1 = client.recordsOfQuery q s.server := by
  unfold Wire.Client.recordsOfQuery
  cases h : q.toSelect with
  | error fault =>
    unfold records
    rw [Work.bind_ofExcept_error _ h]
    rfl
  | ok found =>
    cases found with
    | none =>
      unfold records
      rw [Work.bind_ofExcept_ok _ h]
      rfl
    | some statement =>
      obtain ⟨journal, done⟩ := (Store.mk client.executor settings).records_apply h s
      rw [done]
      exact congrArg (q.shown <$> ·) (client.toRecords_select statement.text s.server)

theorem streamed_client {read : Stream Record → Option (Except Fault (List Record))}
    (reads : ∀ s, s.pump.Free → read s = some (gather s.finish s.pump.upcoming)) :
    let db : Store (Wire.Connection τ) := ⟨client.executor, settings⟩
    (db.streamed q read s).1 = some <$> client.recordsOfQuery q s.server ∧
      (db.streamed q read s).2.server = (db.records q s).2.server := by
  intro db
  unfold Wire.Client.recordsOfQuery
  cases h : q.toSelect with
  | error fault =>
    unfold streamed stream records
    rw [Work.bind_ofExcept_error _ h, Work.bind_ofExcept_error _ h]
    exact ⟨rfl, rfl⟩
  | ok found =>
    cases found with
    | none =>
      have asked : db.stream q s = (.ok (.ofStream .empty), s) := by
        unfold stream
        rw [Work.bind_ofExcept_ok _ h]
        rfl
      rw [db.streamed_apply asked rfl (reads .empty Pump.free_drained)]
      unfold records
      rw [Work.bind_ofExcept_ok _ h]
      exact ⟨rfl, rfl⟩
    | some statement =>
      obtain ⟨journal, asked⟩ := db.stream_apply h s
      obtain ⟨journal', done⟩ := db.records_apply h s
      -- Both asked for the same statement, and the stream begins where the other got its reply.
      obtain ⟨begun, begins, free, worth⟩ := client.shownStream_cases q statement.text s.server
      rw [done, db.streamed_apply asked begins (reads begun free), worth]
      exact ⟨rfl, rfl⟩

/-- A stream that is collected brings the records of its query, or their fault, and leaves the
server as they do. In which order the pump and the consumer act does not matter. -/
theorem streamed_eq_records :
    let db : Store (Wire.Connection τ) := ⟨client.executor, settings⟩
    ((db.streamed q Stream.collect s).1 = some <$> (db.records q s).1 ∧
      (db.streamed q Stream.collect s).2.server = (db.records q s).2.server) ∧
    (∀ sides, (db.streamed q (Stream.collectAlong sides) s).1 = some <$> (db.records q s).1 ∧
      (db.streamed q (Stream.collectAlong sides) s).2.server = (db.records q s).2.server) ∧
    (db.records q s).1 = client.recordsOfQuery q s.server := by
  intro db
  have worth : (db.records q s).1 = client.recordsOfQuery q s.server :=
    records_client client settings q s
  refine ⟨?_, fun sides => ?_, worth⟩
  · rw [worth]
    exact streamed_client client settings q s fun _ free => Stream.collect_eq free
  · rw [worth]
    exact streamed_client client settings q s fun _ free => Stream.collectAlong_eq sides free

end Store

end RowStore
