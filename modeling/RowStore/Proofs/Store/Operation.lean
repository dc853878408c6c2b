import RowStore.Proofs.Checks
import RowStore.Proofs.Store.Saving

/-!
# Operations and their refusals

Every operation is settled by its arguments before the executor hears of it. Its arguments either
are refused, or determine the calls that it will make as long as none of them fails.
-/

namespace RowStore

variable {σ α β γ : Type}

/-! ## What work asks -/

/-- Work that makes these calls in this order: all of them if it succeeds, and no others. -/
def Asks (work : Work (Recorded σ) α) (calls : List Call) : Prop :=
  ∀ s, ∃ made, (work s).2.server.calls = s.server.calls ++ made ∧ made <+: calls ∧
    ∀ a, (work s).1 = .ok a → made = calls

namespace Asks

theorem of_same {work : Work (Recorded σ) α} (h : ∀ s, (work s).2.server = s.server) :
    Asks work [] :=
  fun s => ⟨[], by rw [h, List.append_nil], List.prefix_rfl, fun _ _ => rfl⟩

theorem pure (a : α) : Asks (Pure.pure a : Work (Recorded σ) α) [] := of_same fun _ => rfl

theorem ofExcept (result : Except Fault α) : Asks (Work.ofExcept result : Work (Recorded σ) α) [] :=
  of_same fun _ => rfl

theorem note (e : Entry) : Asks (Work.note e : Work (Recorded σ) Unit) [] := of_same fun _ => rfl

theorem bind {work : Work (Recorded σ) α} {f : α → Work (Recorded σ) β} {xs ys : List Call}
    (hw : Asks work xs) (hf : ∀ a, Asks (f a) ys) : Asks (work >>= f) (xs ++ ys) := by
  intro s
  obtain ⟨made, hcalls, hprefix, hall⟩ := hw s
  rw [Work.bind_apply]
  generalize hrun : work s = r at hcalls hall
  obtain ⟨result, s'⟩ := r
  cases result with
  | error fault =>
    exact ⟨made, hcalls, hprefix.trans (List.prefix_append xs ys), fun a ha => by cases ha⟩
  | ok a =>
    obtain rfl := hall a rfl
    obtain ⟨made', hcalls', hprefix', hall'⟩ := hf a s'
    refine ⟨made ++ made', ?_, (List.prefix_append_right_inj made).mpr hprefix', ?_⟩
    · exact hcalls'.trans (by rw [hcalls, List.append_assoc])
    · intro b hb
      rw [hall' b hb]

theorem noted {noting : Bool} {e : Entry} {work : Work (Recorded σ) α} {xs : List Call}
    (hw : Asks work xs) :
    Asks (if noting then Work.note e >>= fun _ => work else work) xs := by
  cases noting with
  | false => exact hw
  | true => exact (Asks.note e).bind fun _ => hw

theorem then_quiet {work : Work (Recorded σ) α} {f : α → Work (Recorded σ) β} {xs : List Call}
    (hw : Asks work xs) (hf : ∀ a, Asks (f a) []) : Asks (work >>= f) xs := by
  simpa using hw.bind hf

end Asks

namespace Store

theorem asks_select (db : Store σ) (sql : String) :
    Asks (db.recorded.select sql) [.select sql] := by
  intro s
  obtain ⟨journal, hrun⟩ := db.recorded.select_apply sql s
  rw [hrun]
  exact ⟨[.select sql], rfl, List.prefix_rfl, fun _ _ => rfl⟩

theorem asks_execute (db : Store σ) (sql : String) (params : List Value) :
    Asks (db.recorded.execute sql params) [.execute sql params] := by
  intro s
  obtain ⟨journal, hrun⟩ := db.recorded.execute_apply sql params s
  rw [hrun]
  exact ⟨[.execute sql params], rfl, List.prefix_rfl, fun _ _ => rfl⟩

theorem asks_stream (db : Store σ) (sql : String) :
    Asks (Work.ask (db.recorded.executor.stream sql)) [.stream sql] :=
  fun _ => ⟨[.stream sql], rfl, List.prefix_rfl, fun _ _ => rfl⟩

end Store

theorem UpToFailure.asks {e : Executor σ} {calls : List Bound} {gives : List Outcome → α → Prop}
    {work : Work (Recorded σ) α} (h : UpToFailure e calls gives work) :
    Asks work (calls.map .ofBound) := by
  intro s
  rcases answers_cases (e.answers calls s.server.server) with
    ⟨outcomes, hgood⟩ | ⟨outcomes, fault, unread, hbad⟩
  · exact ⟨_, (h.complete s outcomes hgood).1, List.prefix_rfl, fun _ _ => rfl⟩
  · obtain ⟨hcalls, hresult⟩ := h.stopped s outcomes fault unread hbad
    refine ⟨_, hcalls, (List.take_prefix _ _).map _, fun a ha => ?_⟩
    rw [hresult] at ha
    cases ha

/-! ## Settled work -/

/-- Work that is settled before it asks anything. -/
structure Settled (prepared : Except Fault (List Call)) (work : Work (Recorded σ) α) : Prop where
  refused (fault : Fault) (h : prepared = .error fault) (s : Session (Recorded σ)) :
    work s = (.error fault, s)
  idle (h : prepared = .ok []) (s : Session (Recorded σ)) : ∃ a, (work s).1 = .ok a
  asks (calls : List Call) (h : prepared = .ok calls) : Asks work calls

namespace Settled

theorem of_asks {calls : List Call} {work : Work (Recorded σ) α} (hasks : Asks work calls)
    (hidle : calls = [] → ∀ s, ∃ a, (work s).1 = .ok a) : Settled (.ok calls) work where
  refused fault h := by cases h
  idle h := hidle (Except.ok.inj h)
  asks _ h := Except.ok.inj h ▸ hasks

theorem of_refused {fault : Fault} {work : Work (Recorded σ) α}
    (h : ∀ s, work s = (.error fault, s)) : Settled (.error fault) work where
  refused _ heq s := Except.error.inj heq ▸ h s
  idle h := by cases h
  asks _ h := by cases h

theorem bind_check {check : Except Fault γ} {prepared : γ → Except Fault (List Call)}
    {f : γ → Work (Recorded σ) α} (h : ∀ c, check = .ok c → Settled (prepared c) (f c)) :
    Settled (check >>= prepared) (Work.ofExcept check >>= f) := by
  cases check with
  | ok c =>
    rw [Work.bind_ofExcept_ok f rfl]
    exact h c rfl
  | error fault =>
    rw [Work.bind_ofExcept_error f rfl]
    exact of_refused fun _ => rfl

theorem map_check {check : Except Fault γ} {calls : γ → List Call} {f : γ → Work (Recorded σ) α}
    (h : ∀ c, check = .ok c → Settled (.ok (calls c)) (f c)) :
    Settled (calls <$> check) (Work.ofExcept check >>= f) := by
  have hbind : calls <$> check = check >>= fun c => .ok (calls c) := by cases check <;> rfl
  rw [hbind]
  exact bind_check h

theorem of_statement {check : Except Fault (Option Sql.Statement)} {call : Sql.Statement → Call}
    {f : Option Sql.Statement → Work (Recorded σ) α} {a : α} (hnone : f none = Pure.pure a)
    (hsome : ∀ statement, Asks (f (some statement)) [call statement]) :
    Settled ((fun found => (found.map call).toList) <$> check) (Work.ofExcept check >>= f) := by
  refine map_check fun found _ => ?_
  cases found with
  | none =>
    rw [hnone]
    exact of_asks (Asks.pure a) fun _ s => ⟨a, rfl⟩
  | some statement => exact of_asks (hsome statement) fun h => by cases h

theorem of_guard {empty : Bool} {a : α} {prepared : Except Fault (List Call)}
    {work : Work (Recorded σ) α} (h : Settled prepared work) :
    Settled (if empty then .ok [] else prepared) (if empty then Pure.pure a else work) := by
  cases empty with
  | false => exact h
  | true => exact of_asks (Asks.pure a) fun _ s => ⟨a, rfl⟩

theorem of_upToFailure {e : Executor σ} {calls : List Bound} {gives : List Outcome → α → Prop}
    {work : Work (Recorded σ) α} (h : UpToFailure e calls gives work) :
    Settled (.ok (calls.map .ofBound)) work := by
  refine of_asks h.asks fun hcalls s => ?_
  obtain rfl := List.map_eq_nil_iff.mp hcalls
  obtain ⟨-, a, ha, -⟩ := h.complete s [] rfl
  exact ⟨a, ha⟩

theorem then_call {prepared : Except Fault (List Call)} {work : Work (Recorded σ) α}
    {last : Work (Recorded σ) β} {call : Call} (h : Settled prepared work)
    (hlast : Asks last [call]) :
    Settled (prepared >>= fun before => .ok (before ++ [call])) (work >>= fun _ => last) := by
  cases prepared with
  | error fault => exact of_refused fun s => Work.bind_error _ (h.refused fault rfl s)
  | ok before => exact of_asks ((h.asks before rfl).bind fun _ => hlast) fun h => by simp at h

theorem map {prepared : Except Fault (List Call)} {work : Work (Recorded σ) α} {f : α → β}
    (h : Settled prepared work) : Settled prepared (work >>= fun a => Pure.pure (f a)) where
  refused fault hfault s := Work.bind_error _ (h.refused fault hfault s)
  idle hidle s := by
    obtain ⟨a, ha⟩ := h.idle hidle s
    exact ⟨f a, by rw [Work.bind_ok _ (Prod.ext ha rfl), Work.pure_apply]⟩
  asks calls hcalls := (h.asks calls hcalls).then_quiet fun _ => Asks.pure _

end Settled

/-! ## The operations of both stores -/

/-- An operation that puts statements together, with what it returns. -/
inductive Operation (σ : Type) : Type → Type where
  | records (q : Query) : Operation σ (List Record)
  | count (q : Query) : Operation σ UInt64
  | stream (q : Query) : Operation σ (StreamRequest σ Record)
  | recordsWithIds (table : String) (ids : List String) : Operation σ (List Record)
  | save (table : String) (rows : List Record) (method : SaveMethod) : Operation σ UInt64
  | patch (q : Query) (fields : Record) : Operation σ UInt64
  | remove (q : Query) : Operation σ UInt64
  | removeIds (table : String) (ids : List String) : Operation σ UInt64
  | createTable (schema : Schema) (options : TableOptions) (drop : Bool) : Operation σ Unit
  | dropTable (table : String) : Operation σ Unit
  | schema (table : String) : Operation σ Schema
  | createKeys (table : String) (drop : Bool) : Operation σ Unit
  | dropKeys (table : String) : Operation σ Unit
  | entries (table : String) (ids : List String) : Operation σ (List (String × List UInt8))
  | removeKeys (table : String) (ids : List String) : Operation σ UInt64
  | saveEntries (table : String) (batch : List (String × List UInt8)) : Operation σ Unit
  | countKeys (table : String) : Operation σ UInt64
  | streamKeys (table : String) (limit : Option UInt64) : Operation σ (StreamRequest σ String)
  | streamValues (table : String) (limit : Option UInt64) :
    Operation σ (StreamRequest σ (List UInt8))
  | streamEntries (table : String) (limit : Option UInt64) :
    Operation σ (StreamRequest σ (String × List UInt8))

namespace Operation

def run (db : Store σ) : Operation σ α → Work σ α
  | .records q => db.records q
  | .count q => db.count q
  | .stream q => db.stream q
  | .recordsWithIds table ids => db.recordsWithIds table ids
  | .save table rows method => db.save table rows method
  | .patch q fields => db.patch q fields
  | .remove q => db.remove q
  | .removeIds table ids => db.removeIds table ids
  | .createTable s options drop => db.createTable s options drop
  | .dropTable table => db.dropTable table
  | .schema table => db.schema table
  | .createKeys table drop => (KeyStore.mk db).createTable table drop
  | .dropKeys table => (KeyStore.mk db).dropTable table
  | .entries table ids => (KeyStore.mk db).entries table ids
  | .removeKeys table ids => (KeyStore.mk db).remove table ids
  | .saveEntries table batch => (KeyStore.mk db).save table batch
  | .countKeys table => (KeyStore.mk db).count table
  | .streamKeys table limit => (KeyStore.mk db).streamKeys table limit
  | .streamValues table limit => (KeyStore.mk db).streamValues table limit
  | .streamEntries table limit => (KeyStore.mk db).streamEntries table limit

/-! ## What the arguments determine -/

def selecting (found : Option Sql.Statement) : List Call :=
  (found.map fun statement => .select statement.text).toList

def executing (found : Option Sql.Statement) : List Call :=
  (found.map fun statement => .execute statement.text []).toList

def streaming (found : Option Sql.Statement) : List Call :=
  (found.map fun statement => .stream statement.text).toList

/-- A table that is dropped, if it has a name. -/
def dropping (table : String) : Except Fault (List Call) :=
  (fun name => [.execute ("DROP TABLE IF EXISTS " ++ name) []]) <$> Store.checkedTable table

/-- The rows of some columns of a table of entries. Without a limit, all of them. -/
def streamingKeys (table : String) (columns : List String) (limit : Option UInt64) :
    Except Fault (List Call) :=
  streaming <$> (((Query.ofTable table).select columns).withLimit (limit.getD 0)).toSelect

/-- The calls of an operation, in order, or why it is refused: the work of the statements of a
query, of a batch and of a schema, and of the check of a table's name. -/
def prepare (limits : Batch.Limits) : Operation σ α → Except Fault (List Call)
  | .records q => selecting <$> q.toSelect
  | .count q => selecting <$> q.toCount
  | .stream q => streaming <$> q.toSelect
  | .recordsWithIds table ids =>
    if ids.isEmpty then .ok [] else selecting <$> (Query.ofIds table ids).toSelect
  | .save table rows method =>
    if rows.isEmpty then .ok []
    else (fun found => found.1.map fun sql => .execute sql []) <$>
      Store.saveStatements limits table (rows.map Record.stringify) method
  | .patch q fields => executing <$> q.toUpdate fields.stringify
  | .remove q => executing <$> q.toDelete
  | .removeIds table ids =>
    if ids.isEmpty then .ok [] else executing <$> (Query.ofIds table ids).toDelete
  | .createTable s options drop => do
    let definition ← s.toDefinition options
    let before ← if drop then dropping s.table else .ok []
    return before ++ [.execute definition.text []]
  | .dropTable table => dropping table
  | .schema table => (fun name => [.select ("DESCRIBE " ++ name)]) <$> Store.checkedTable table
  | .createKeys table drop => do
    let before ← if drop then dropping table else .ok []
    let name ← Store.checkedTable table
    return before ++ [.execute
      ("CREATE TABLE " ++ name ++ " (`id` VARCHAR(64) PRIMARY KEY, `v` LONGBLOB NOT NULL)") []]
  | .dropKeys table => dropping table
  | .entries table ids =>
    if ids.isEmpty then .ok []
    else selecting <$> ((Query.ofIds table ids).select ["id", "v"]).toSelect
  | .removeKeys table ids => executing <$> (Query.ofIds table ids).toDelete
  | .saveEntries table batch =>
    if batch.isEmpty then .ok []
    else (fun name => batch.map fun entry =>
      .execute ("REPLACE INTO " ++ name ++ " (`id`, `v`) VALUES (?, ?)")
        [.text entry.1, .blob entry.2]) <$> Store.checkedTable table
  | .countKeys table => selecting <$> (Query.ofTable table).toCount
  | .streamKeys table limit => streamingKeys table ["id"] limit
  | .streamValues table limit => streamingKeys table ["v"] limit
  | .streamEntries table limit => streamingKeys table ["id", "v"] limit

end Operation

namespace Store

variable (db : Store σ)

theorem settled_records (q : Query) :
    Settled (Operation.selecting <$> q.toSelect) (db.recorded.records q) := by
  refine Settled.of_statement rfl fun statement => ?_
  exact (db.asks_select _).then_quiet fun _ => Asks.pure _

theorem settled_count (q : Query) :
    Settled (Operation.selecting <$> q.toCount) (db.recorded.count q) := by
  refine Settled.of_statement rfl fun statement => ?_
  exact (db.asks_select _).then_quiet fun _ => Asks.ofExcept _

theorem settled_executeAffected (check : Except Fault (Option Sql.Statement)) :
    Settled (Operation.executing <$> check)
      (Work.ofExcept check >>= db.recorded.executeAffected) := by
  refine Settled.of_statement rfl fun statement => ?_
  exact (db.asks_execute _ _).then_quiet fun _ => Asks.pure _

theorem settled_stream (q : Query) :
    Settled (Operation.streaming <$> q.toSelect) (db.recorded.stream q) := by
  refine Settled.of_statement rfl fun statement => ?_
  exact ((db.asks_stream statement.text).then_quiet fun _ => Asks.pure _).noted.noted

theorem settled_save (table : String) (rows : List Record) (method : SaveMethod) :
    Settled ((Operation.save table rows method : Operation (Recorded σ) UInt64).prepare
      db.settings.limits) (db.recorded.save table rows method) := by
  cases rows with
  | nil => exact Settled.of_asks (Asks.pure 0) fun _ s => ⟨0, rfl⟩
  | cons r rest =>
    refine Settled.map_check fun found hfound => ?_
    have hwork := Settled.of_upToFailure (db.upToFailure_save hfound)
    have hfound' : saveStatements db.recorded.settings.limits table
        ((r :: rest).map Record.stringify) method = .ok found := hfound
    rw [List.map_map] at hwork
    unfold save at hwork
    rw [if_neg (by simp), Work.bind_ofExcept_ok _ hfound'] at hwork
    exact hwork

theorem settled_dropTable (table : String) :
    Settled (Operation.dropping table) (db.recorded.dropTable table) :=
  Settled.map_check fun _ _ => Settled.of_asks
    ((db.asks_execute _ _).then_quiet fun _ => Asks.pure _) fun h => by cases h

theorem settled_createTable (schema : Schema) (options : TableOptions) (drop : Bool) :
    Settled ((Operation.createTable schema options drop : Operation (Recorded σ) Unit).prepare
      db.settings.limits) (db.recorded.createTable schema options drop) := by
  refine Settled.bind_check fun definition _ => ?_
  have hcreate := (db.asks_execute definition.text []).then_quiet fun _ => Asks.pure ()
  cases drop with
  | false => exact Settled.of_asks hcreate fun h => by cases h
  | true => exact (db.settled_dropTable schema.table).then_call hcreate

theorem settled_schema (table : String) :
    Settled ((Operation.schema table : Operation (Recorded σ) Schema).prepare db.settings.limits)
      (db.recorded.schema table) := by
  refine Settled.map_check fun name _ => Settled.of_asks ?_ fun h => by cases h
  exact (db.asks_select _).then_quiet fun _ => (Asks.ofExcept _).then_quiet fun _ => Asks.ofExcept _

end Store

namespace KeyStore

variable (db : Store σ)

theorem settled_createTable (table : String) (drop : Bool) :
    Settled ((Operation.createKeys table drop : Operation (Recorded σ) Unit).prepare
      db.settings.limits) ((KeyStore.mk db.recorded).createTable table drop) := by
  have hcreate (name : String) := (db.asks_execute
    ("CREATE TABLE " ++ name ++ " (`id` VARCHAR(64) PRIMARY KEY, `v` LONGBLOB NOT NULL)")
    []).then_quiet fun _ => Asks.pure ()
  have hdrop := db.settled_dropTable table
  cases drop with
  | false =>
    exact Settled.bind_check fun name _ => Settled.of_asks (hcreate name) fun h => by cases h
  | true =>
    -- The table that is dropped is the one that is created, so its name is checked in time.
    unfold Operation.dropping at hdrop
    simp only [Operation.prepare, Operation.dropping, createTable, if_true]
    cases hname : Store.checkedTable table with
    | error fault =>
      rw [hname] at hdrop
      exact Settled.of_refused fun s => Work.bind_error _ (hdrop.refused fault rfl s)
    | ok name =>
      rw [hname] at hdrop
      exact hdrop.then_call (hcreate name)

theorem settled_entries (table : String) (ids : List String) :
    Settled ((Operation.entries table ids : Operation (Recorded σ)
      (List (String × List UInt8))).prepare db.settings.limits)
      ((KeyStore.mk db.recorded).entries table ids) := by
  have hentries (q : Query) : Settled (Operation.selecting <$> q.toSelect)
      (db.recorded.records q >>= fun rows => Work.ofExcept (rows.mapM entryOf)) := by
    unfold Store.records
    rw [bind_assoc]
    refine Settled.of_statement rfl fun statement => ?_
    exact ((db.asks_select _).then_quiet fun _ => Asks.pure _).then_quiet fun _ => Asks.ofExcept _
  exact Settled.of_guard (hentries _)

theorem settled_save (table : String) (batch : List (String × List UInt8)) :
    Settled ((Operation.saveEntries table batch : Operation (Recorded σ) Unit).prepare
      db.settings.limits) ((KeyStore.mk db.recorded).save table batch) := by
  cases batch with
  | nil => exact Settled.of_asks (Asks.pure ()) fun _ s => ⟨(), rfl⟩
  | cons entry rest =>
    refine Settled.map_check fun name hname => ?_
    have hname' : (entry :: rest) ≠ [] → Store.checkedTable table = .ok name := fun _ => hname
    have hwork := Settled.of_upToFailure (upToFailure_save db hname')
    rw [List.map_map] at hwork
    unfold save at hwork
    rw [if_neg (by simp), Work.bind_ofExcept_ok _ hname] at hwork
    exact hwork

theorem settled_stream (table : String) (columns : List String) (limit : Option UInt64) :
    Settled (Operation.streamingKeys table columns limit)
      ((KeyStore.mk db.recorded).stream table columns limit) :=
  db.settled_stream _

end KeyStore

theorem Operation.settled (db : Store σ) (op : Operation (Recorded σ) α) :
    Settled (op.prepare db.settings.limits) (op.run db.recorded) := by
  cases op with
  | records q => exact db.settled_records q
  | count q => exact db.settled_count q
  | stream q => exact db.settled_stream q
  | recordsWithIds table ids => exact Settled.of_guard (db.settled_records _)
  | save table rows method => exact db.settled_save table rows method
  | patch q fields => exact db.settled_executeAffected _
  | remove q => exact db.settled_executeAffected _
  | removeIds table ids => exact Settled.of_guard (db.settled_executeAffected _)
  | createTable schema options drop => exact db.settled_createTable schema options drop
  | dropTable table => exact db.settled_dropTable table
  | schema table => exact db.settled_schema table
  | createKeys table drop => exact KeyStore.settled_createTable db table drop
  | dropKeys table => exact db.settled_dropTable table
  | entries table ids => exact KeyStore.settled_entries db table ids
  | removeKeys table ids => exact db.settled_executeAffected _
  | saveEntries table batch => exact KeyStore.settled_save db table batch
  | countKeys table => exact db.settled_count _
  | streamKeys table limit => exact (KeyStore.settled_stream db table _ limit).map
  | streamValues table limit => exact (KeyStore.settled_stream db table _ limit).map
  | streamEntries table limit => exact (KeyStore.settled_stream db table _ limit).map

/-- An operation whose arguments are refused leaves everything as it is, and one that has nothing to
do asks nothing. Every other makes its calls in order, all of them unless one fails. A table whose
new definition is refused is not dropped. -/
theorem refused_before_calls (db : Store σ) (op : Operation (Recorded σ) α)
    (s : Session (Recorded σ)) :
    (∀ fault, op.prepare db.settings.limits = .error fault →
      op.run db.recorded s = (.error fault, s)) ∧
    (op.prepare db.settings.limits = .ok [] →
      (∃ a, (op.run db.recorded s).1 = .ok a) ∧
        (op.run db.recorded s).2.server.calls = s.server.calls) ∧
    (∀ calls, op.prepare db.settings.limits = .ok calls →
      ∃ made, (op.run db.recorded s).2.server.calls = s.server.calls ++ made ∧ made <+: calls ∧
        ∀ a, (op.run db.recorded s).1 = .ok a → made = calls) ∧
    ∀ (schema : Schema) (options : TableOptions) (drop : Bool) (fault : Fault),
      schema.toDefinition options = .error fault →
        db.recorded.createTable schema options drop s = (.error fault, s) := by
  have hsettled := op.settled db
  refine ⟨fun fault h => hsettled.refused fault h s, fun h => ⟨hsettled.idle h s, ?_⟩,
    fun calls h => hsettled.asks calls h s, fun schema options drop fault h => ?_⟩
  · obtain ⟨made, hcalls, hprefix, -⟩ := hsettled.asks [] h s
    rw [hcalls, List.prefix_nil.mp hprefix, List.append_nil]
  · refine (db.settled_createTable schema options drop).refused fault ?_ s
    rw [Operation.prepare, h]
    rfl

/-- A definition with a bad engine leaves the old table alone. One with a good engine is not sent
once the old table could not be dropped. -/
theorem refused_before_calls_engine :
    let db : Store Nat := ⟨.losing 0, .standard⟩
    let s : Session (Recorded Nat) := ⟨⟨0, []⟩, []⟩
    let create (engine : String) : Operation (Recorded Nat) Unit :=
      .createTable ⟨"t", []⟩ ⟨engine⟩ true
    let remove : Operation (Recorded Nat) UInt64 := .removeIds "t" []
    let planned : List Call := [.execute "DROP TABLE IF EXISTS `t`" [],
      .execute "CREATE TABLE `t` (\nid VARCHAR(255) NOT NULL,\nPRIMARY KEY (id)\n) ENGINE=X" []]
    (create "x y").run db.recorded s = (.error (.invalid (.badEngine "x y")), s) ∧
      (remove.run db.recorded s).2.server.calls = [] ∧
      ∃ made, ((create "X").run db.recorded s).2.server.calls = made ∧ made <+: planned := by
  intro db s create remove planned
  obtain ⟨hrefused, -⟩ := refused_before_calls db (create "x y") s
  obtain ⟨-, hidle, -⟩ := refused_before_calls db remove s
  obtain ⟨-, -, hcalls, -⟩ := refused_before_calls db (create "X") s
  obtain ⟨made, hmade, hprefix, -⟩ := hcalls planned rfl
  exact ⟨hrefused _ rfl, (hidle rfl).2, made, hmade, hprefix⟩

end RowStore
