import Mathlib
import RowStore.Proofs.Store.Recorded

/-!
# How far a batch gets

A batch runs its statements in order, each once, up to the first that fails. What the caller hears
tells how many ran before.
-/

namespace RowStore

variable {σ β : Type}

/-- A statement with the values of its parameters. -/
abbrev Bound := String × List Value

def Call.ofBound (c : Bound) : Call := .execute c.1 c.2

/-! ## Statements in a row -/

namespace Executor

/-- The answers to statements that are run one after the other. -/
def answers (e : Executor σ) : List Bound → σ → List (Except Fault Outcome)
  | [], _ => []
  | c :: rest, server =>
    (e.execute c.1 c.2 server).1 :: e.answers rest (e.execute c.1 c.2 server).2

/-- The state that they leave. -/
def after (e : Executor σ) : List Bound → σ → σ
  | [], server => server
  | c :: rest, server => e.after rest (e.execute c.1 c.2 server).2

theorem answers_recorded (e : Executor σ) (calls : List Bound) (r : Recorded σ) :
    e.recorded.answers calls r = e.answers calls r.server := by
  induction calls generalizing r with
  | nil => rfl
  | cons c rest ih =>
    rw [answers, answers, ih]
    rfl

theorem calls_after_recorded (e : Executor σ) (calls : List Bound) (r : Recorded σ) :
    (e.recorded.after calls r).calls = r.calls ++ calls.map Call.ofBound := by
  induction calls generalizing r with
  | nil => rw [after, List.map_nil, List.append_nil]
  | cons c rest ih =>
    rw [after, ih, List.map_cons, List.append_cons]
    rfl

end Executor

theorem answers_cases (answers : List (Except Fault Outcome)) :
    (∃ outcomes : List Outcome, answers = outcomes.map .ok) ∨
      ∃ (outcomes : List Outcome) (fault : Fault) (unread : List (Except Fault Outcome)),
        answers = outcomes.map .ok ++ .error fault :: unread := by
  induction answers with
  | nil => exact Or.inl ⟨[], rfl⟩
  | cons a rest ih =>
    cases a with
    | error fault => exact Or.inr ⟨[], fault, rest, rfl⟩
    | ok outcome =>
      rcases ih with ⟨outcomes, rfl⟩ | ⟨outcomes, fault, unread, rfl⟩
      · exact Or.inl ⟨outcome :: outcomes, rfl⟩
      · exact Or.inr ⟨outcome :: outcomes, fault, unread, rfl⟩

/-! ## One loop for both stores -/

namespace Store

/-- What the failure of a statement makes of its batch. `report` is done unless it is the first. -/
def stopBatch (total : Nat) (report : Nat → Work σ Unit) (completed : Nat) (fault : Fault) :
    Work σ β := do
  if completed = 0 then throw fault
  report completed
  throw (.stopped completed total fault)

/-- Runs statements up to the first failure. `add` collects what the good ones give. -/
def runBatch (db : Store σ) (total : Nat) (report : Nat → Work σ Unit) (add : β → Outcome → β) :
    Nat → β → List Bound → Work σ β
  | _, b, [] => pure b
  | completed, b, c :: rest => do
    match ← Work.attempt (db.execute c.1 c.2) with
    | .ok outcome => db.runBatch total report add (completed + 1) (add b outcome) rest
    | .error fault => stopBatch total report completed fault

theorem executeFrom_eq (db : Store σ) (total completed : Nat) (affected : UInt64)
    (statements : List String) :
    db.executeFrom completed total affected statements =
      db.runBatch total (fun n => Work.note (stoppedEntry n total)) (fun n o => n + o.affected)
        completed affected (statements.map fun sql => (sql, [])) := by
  induction statements generalizing completed affected with
  | nil => rfl
  | cons sql rest ih =>
    rw [List.map_cons, runBatch, executeFrom]
    congr
    funext result
    cases result with
    | ok outcome => exact ih _ _
    | error fault => rfl

end Store

theorem KeyStore.saveFrom_eq (kv : KeyStore σ) (sql : String) (total completed : Nat)
    (batch : List (String × List UInt8)) :
    kv.saveFrom sql completed total batch =
      kv.store.runBatch total (fun _ => pure ()) (fun _ _ => ()) completed ()
        (batch.map fun entry => (sql, [.text entry.1, .blob entry.2])) := by
  induction batch generalizing completed with
  | nil => rfl
  | cons entry rest ih =>
    rw [List.map_cons, Store.runBatch, saveFrom]
    congr
    funext result
    cases result with
    | ok outcome => exact ih _
    | error fault => rfl

namespace Store

/-- A fault is passed on as it is if nothing ran before. -/
def stoppedAt (completed total : Nat) (fault : Fault) : Fault :=
  if completed = 0 then fault else .stopped completed total fault

theorem stopBatch_apply (total : Nat) (report : Nat → Work σ Unit)
    (hreport : ∀ n s, ∃ journal, report n s = (.ok (), ⟨s.server, journal⟩))
    (completed : Nat) (fault : Fault) (s : Session σ) :
    ∃ journal, (stopBatch total report completed fault : Work σ β) s =
      (.error (stoppedAt completed total fault), ⟨s.server, journal⟩) := by
  unfold stopBatch stoppedAt
  by_cases hzero : completed = 0
  · rw [if_pos hzero, if_pos hzero]
    exact ⟨s.journal, rfl⟩
  · rw [if_neg hzero, if_neg hzero]
    obtain ⟨journal, hdone⟩ := hreport completed s
    exact ⟨journal, Work.bind_ok _ hdone⟩

theorem runBatch_cons (db : Store σ) (total : Nat) (report : Nat → Work σ Unit)
    (add : β → Outcome → β) (completed : Nat) (b : β) (c : Bound) (rest : List Bound)
    (s : Session σ) :
    ∃ journal, db.runBatch total report add completed b (c :: rest) s =
      (match (db.executor.execute c.1 c.2 s.server).1 with
        | .ok outcome => db.runBatch total report add (completed + 1) (add b outcome) rest
        | .error fault => stopBatch total report completed fault)
        ⟨(db.executor.execute c.1 c.2 s.server).2, journal⟩ := by
  obtain ⟨journal, hrun⟩ := db.execute_apply c.1 c.2 s
  refine ⟨journal, ?_⟩
  rw [runBatch, Work.bind_ok _ (Work.attempt_apply _ s), hrun]

theorem runBatch_ok (db : Store σ) (total : Nat) (report : Nat → Work σ Unit)
    (add : β → Outcome → β) (calls : List Bound) (completed : Nat) (b : β)
    (outcomes : List Outcome) (s : Session σ)
    (h : db.executor.answers calls s.server = outcomes.map .ok) :
    ∃ journal, db.runBatch total report add completed b calls s =
      (.ok (outcomes.foldl add b), ⟨db.executor.after calls s.server, journal⟩) := by
  induction calls generalizing completed b outcomes s with
  | nil =>
    obtain rfl : outcomes = [] := by simpa [Executor.answers] using h
    exact ⟨s.journal, rfl⟩
  | cons c rest ih =>
    cases outcomes with
    | nil => simp [Executor.answers] at h
    | cons outcome outcomes =>
      obtain ⟨hfirst, hrest⟩ := List.cons.inj h
      obtain ⟨journal, hrun⟩ := db.runBatch_cons total report add completed b c rest s
      rw [hfirst] at hrun
      obtain ⟨journal', hloop⟩ := ih (completed + 1) (add b outcome) outcomes ⟨_, journal⟩ hrest
      exact ⟨journal', hrun.trans hloop⟩

theorem runBatch_error (db : Store σ) (total : Nat) (report : Nat → Work σ Unit)
    (add : β → Outcome → β)
    (hreport : ∀ n s, ∃ journal, report n s = (.ok (), ⟨s.server, journal⟩))
    (calls : List Bound) (completed : Nat) (b : β) (outcomes : List Outcome) (fault : Fault)
    (unread : List (Except Fault Outcome)) (s : Session σ)
    (h : db.executor.answers calls s.server = outcomes.map .ok ++ .error fault :: unread) :
    ∃ journal, db.runBatch total report add completed b calls s =
      (.error (stoppedAt (completed + outcomes.length) total fault),
        ⟨db.executor.after (calls.take (outcomes.length + 1)) s.server, journal⟩) := by
  induction calls generalizing completed b outcomes s with
  | nil => simp [Executor.answers] at h
  | cons c rest ih =>
    obtain ⟨journal, hrun⟩ := db.runBatch_cons total report add completed b c rest s
    cases outcomes with
    | nil =>
      obtain ⟨hfirst, -⟩ := List.cons.inj h
      rw [hfirst] at hrun
      obtain ⟨journal', hstop⟩ := stopBatch_apply total report hreport completed fault ⟨_, journal⟩
      exact ⟨journal', hrun.trans hstop⟩
    | cons outcome outcomes =>
      obtain ⟨hfirst, hrest⟩ := List.cons.inj h
      rw [hfirst] at hrun
      obtain ⟨journal', hloop⟩ := ih (completed + 1) (add b outcome) outcomes ⟨_, journal⟩ hrest
      refine ⟨journal', hrun.trans (hloop.trans ?_)⟩
      rw [List.length_cons, Nat.add_right_comm, Nat.add_assoc]
      rfl

end Store

/-! ## The law of a batch -/

/-- The rows that some statements touched. -/
def affectedRows (outcomes : List Outcome) : Nat := (outcomes.map fun o => o.affected.toNat).sum

/-- Work that puts statements to an executor in order, each once, up to the first that fails. It
passes on the fault of the first statement, and with a later one it tells how many ran before. -/
structure UpToFailure (e : Executor σ) (calls : List Bound) (gives : List Outcome → β → Prop)
    (work : Work (Recorded σ) β) : Prop where
  complete (s : Session (Recorded σ)) (outcomes : List Outcome)
    (h : e.answers calls s.server.server = outcomes.map .ok) :
    (work s).2.server.calls = s.server.calls ++ calls.map .ofBound ∧
      ∃ b, (work s).1 = .ok b ∧ gives outcomes b
  stopped (s : Session (Recorded σ)) (outcomes : List Outcome) (fault : Fault)
    (unread : List (Except Fault Outcome))
    (h : e.answers calls s.server.server = outcomes.map .ok ++ .error fault :: unread) :
    (work s).2.server.calls = s.server.calls ++ (calls.take (outcomes.length + 1)).map .ofBound ∧
      (work s).1 = .error
        (if outcomes = [] then fault else .stopped outcomes.length calls.length fault)

theorem upToFailure_of_runBatch (db : Store σ) (calls : List Bound)
    (report : Nat → Work (Recorded σ) Unit) (add : β → Outcome → β) (b : β)
    (hreport : ∀ n s, ∃ journal, report n s = (.ok (), ⟨s.server, journal⟩))
    {gives : List Outcome → β → Prop} (hgives : ∀ outcomes, gives outcomes (outcomes.foldl add b))
    {work : Work (Recorded σ) β}
    (hwork : ∀ s, ∃ journal, work s =
      db.recorded.runBatch calls.length report add 0 b calls ⟨s.server, journal⟩) :
    UpToFailure db.executor calls gives work where
  complete s outcomes h := by
    obtain ⟨journal, hrun⟩ := hwork s
    rw [← db.executor.answers_recorded] at h
    obtain ⟨journal', hbatch⟩ := db.recorded.runBatch_ok calls.length report add calls 0 b
      outcomes ⟨s.server, journal⟩ h
    rw [hrun, hbatch]
    exact ⟨db.executor.calls_after_recorded calls s.server, _, rfl, hgives outcomes⟩
  stopped s outcomes fault unread h := by
    obtain ⟨journal, hrun⟩ := hwork s
    rw [← db.executor.answers_recorded] at h
    obtain ⟨journal', hbatch⟩ := db.recorded.runBatch_error calls.length report add hreport calls
      0 b outcomes fault unread ⟨s.server, journal⟩ h
    rw [hrun, hbatch]
    refine ⟨db.executor.calls_after_recorded _ s.server, ?_⟩
    simp only [Store.stoppedAt, Nat.zero_add, List.length_eq_zero_iff]

theorem foldl_affected (outcomes : List Outcome) (n : UInt64)
    (h : n.toNat + affectedRows outcomes < UInt64.size) :
    (outcomes.foldl (fun n o => n + o.affected) n).toNat = n.toNat + affectedRows outcomes := by
  induction outcomes generalizing n with
  | nil => rfl
  | cons o rest ih =>
    simp only [affectedRows, List.map_cons, List.sum_cons] at h ⊢
    have hstep : (n + o.affected).toNat = n.toNat + o.affected.toNat := by
      rw [UInt64.toNat_add]
      apply Nat.mod_eq_of_lt
      simp only [UInt64.size] at h
      omega
    rw [List.foldl_cons, ih _ (by rw [hstep]; unfold affectedRows; omega), hstep]
    unfold affectedRows
    omega

namespace Store

theorem saveStatements_nil {limits : Batch.Limits} {table : String} {method : SaveMethod}
    {statements : List String} {entries : List Entry}
    (h : saveStatements limits table [] method = .ok (statements, entries)) : statements = [] := by
  cases method <;> cases h <;> rfl

theorem save_apply (db : Store σ) {table : String} {rows : List Record} {method : SaveMethod}
    {statements : List String} {entries : List Entry}
    (h : saveStatements db.settings.limits table (rows.map Record.stringify) method =
      .ok (statements, entries)) (s : Session σ) :
    ∃ journal, db.save table rows method s =
      db.executeFrom 0 statements.length 0 statements ⟨s.server, journal⟩ := by
  cases rows with
  | nil =>
    obtain rfl := saveStatements_nil h
    exact ⟨s.journal, rfl⟩
  | cons r rest =>
    refine ⟨s.journal ++ entries, ?_⟩
    unfold save
    rw [if_neg (by simp), Work.bind_ofExcept_ok _ h]
    exact Work.bind_ok _ (Work.noteAll_apply entries s)

end Store

theorem KeyStore.save_apply (kv : KeyStore σ) {table name : String}
    {batch : List (String × List UInt8)}
    (h : batch ≠ [] → Store.checkedTable table = .ok name) (s : Session σ) :
    kv.save table batch s = kv.saveFrom ("REPLACE INTO " ++ name ++ " (`id`, `v`) VALUES (?, ?)")
      0 batch.length batch s := by
  cases batch with
  | nil => rfl
  | cons entry rest =>
    unfold save
    rw [if_neg (by simp), Work.bind_ofExcept_ok _ (h (by simp))]

theorem Store.upToFailure_save (db : Store σ) {table : String} {rows : List Record}
    {method : SaveMethod} {statements : List String} {entries : List Entry}
    (h : saveStatements db.settings.limits table (rows.map Record.stringify) method =
      .ok (statements, entries)) :
    UpToFailure db.executor (statements.map fun sql => (sql, []))
      (fun outcomes affected => affectedRows outcomes < UInt64.size →
        affected.toNat = affectedRows outcomes)
      (db.recorded.save table rows method) := by
  refine upToFailure_of_runBatch db _ (fun n => Work.note (stoppedEntry n statements.length))
    (fun n o => n + o.affected) 0 (fun n s => ⟨_, Work.note_apply _ s⟩) ?_ ?_
  · intro outcomes hsum
    rw [foldl_affected outcomes 0 (by simpa using hsum)]
    simp
  · intro s
    obtain ⟨journal, hrun⟩ := db.recorded.save_apply h s
    refine ⟨journal, hrun.trans ?_⟩
    rw [executeFrom_eq, List.length_map]

theorem KeyStore.upToFailure_save (db : Store σ) {table name : String}
    {batch : List (String × List UInt8)}
    (h : batch ≠ [] → Store.checkedTable table = .ok name) :
    UpToFailure db.executor
      (batch.map fun entry => ("REPLACE INTO " ++ name ++ " (`id`, `v`) VALUES (?, ?)",
        [.text entry.1, .blob entry.2]))
      (fun _ _ => True) ((KeyStore.mk db).recorded.save table batch) := by
  refine upToFailure_of_runBatch db _ (fun _ => pure ()) (fun _ _ => ()) ()
    (fun n s => ⟨_, Work.pure_apply () s⟩) (fun _ => trivial) ?_
  intro s
  refine ⟨s.journal, ((KeyStore.mk db).recorded.save_apply h s).trans ?_⟩
  rw [saveFrom_eq, List.length_map]
  rfl

/-- Both stores save a batch statement by statement up to the first failure: the record store by
statements that hold their values, the key-value store by one statement that each entry is bound
to. -/
theorem save_upToFailure (db : Store σ) :
    (∀ table rows method statements entries,
      Store.saveStatements db.settings.limits table (rows.map Record.stringify) method =
          .ok (statements, entries) →
        UpToFailure db.executor (statements.map fun sql => (sql, []))
          (fun outcomes affected => affectedRows outcomes < UInt64.size →
            affected.toNat = affectedRows outcomes)
          (db.recorded.save table rows method)) ∧
    ∀ table name (batch : List (String × List UInt8)),
      (batch ≠ [] → Store.checkedTable table = .ok name) →
        UpToFailure db.executor
          (batch.map fun entry => ("REPLACE INTO " ++ name ++ " (`id`, `v`) VALUES (?, ?)",
            [.text entry.1, .blob entry.2]))
          (fun _ _ => True) ((KeyStore.mk db).recorded.save table batch) := by
  constructor
  · intro table rows method statements entries h
    exact db.upToFailure_save h
  · intro table name batch h
    exact KeyStore.upToFailure_save db h

/-- An executor that touches two rows with each statement but one, which is lost. It counts the
statements. -/
def Executor.losing (lost : Nat) : Executor Nat where
  select _ n := (.ok .empty, n)
  execute _ _ n := (if n = lost then .error (.execution "lost") else .ok ⟨2, none⟩, n + 1)
  stream _ n := (.ofStream .empty, n)
  ping n := (.ok (), n)

/-- The second of three changes is lost, and the third is not tried. Of two entries the first is
lost. -/
theorem save_upToFailure_lost :
    let db : Store Nat := ⟨.losing 1, .standard⟩
    let rows : List Record := [.ofList [("id", .int 1), ("n", .int 7)],
      .ofList [("id", .int 2), ("n", .int 8)], .ofList [("id", .int 3), ("n", .int 9)]]
    let changed := db.recorded.save "t" rows .update ⟨⟨0, []⟩, []⟩
    let stored := (KeyStore.mk db).recorded.save "t" [("a", [1]), ("b", [2])] ⟨⟨1, []⟩, []⟩
    changed.2.server.calls = [.execute "UPDATE `t` SET `n` = 7 WHERE `id` = 1" [],
        .execute "UPDATE `t` SET `n` = 8 WHERE `id` = 2" []] ∧
      changed.1 = .error (.stopped 1 3 (.execution "lost")) ∧
      stored.2.server.calls = [.execute "REPLACE INTO `t` (`id`, `v`) VALUES (?, ?)"
        [.text "a", .blob [1]]] ∧
      stored.1 = .error (.execution "lost") := by
  intro db rows changed stored
  obtain ⟨hrecords, hkeys⟩ := save_upToFailure db
  obtain ⟨hcalls, hresult⟩ := (hrecords "t" rows .update _ _ rfl).stopped ⟨⟨0, []⟩, []⟩
    [⟨2, none⟩] (.execution "lost") [.ok ⟨2, none⟩] rfl
  obtain ⟨hcalls', hresult'⟩ := (hkeys "t" "`t`" [("a", [1]), ("b", [2])] (fun _ => rfl)).stopped
    ⟨⟨1, []⟩, []⟩ [] (.execution "lost") [.ok ⟨2, none⟩] rfl
  exact ⟨hcalls, hresult, hcalls', hresult'⟩

end RowStore
