import Mathlib
import RowStore.Proofs.Flow.Moment

/-!
# Waking the producer

A producer that finds the flow paused sleeps until the consumer has done something. It remembers the
version of the pause switch that it saw, so that no resumption is lost between its look and its
sleep.
-/

namespace RowStore.Flow.Moment

/-! ## Sleep -/

/-- The consumer does not hold the producer back, or not any more. -/
def Stirred (f : Flow) : Prop := f.paused = false ∨ f.cancelled = true ∨ f.consumer = .gone

/-- There is something that wakes a producer which has seen this version of the switch. -/
def Notified (f : Flow) (seen : Nat) : Prop :=
  seen < f.version ∨ f.cancelled = true ∨ f.consumer = .gone

/-- A sleeping producer has seen the switch as it is now, and that it says pause, or it has seen an
older version. -/
def Watchful (m : Moment) : Prop :=
  m.look = none → ∀ seen errand, m.flow.producer = .waiting seen errand →
    seen ≤ m.flow.version ∧ (seen = m.flow.version → m.flow.paused = true)

theorem watchful_ofCapacity (capacity : Nat) : Watchful (ofCapacity capacity) := by
  intro _ seen errand asleep
  cases asleep

theorem watchful_of_look {m : Moment} {look : Glance × Option Item} (h : m.look = some look) :
    Watchful m := by
  intro none
  rw [h] at none
  contradiction

theorem watchful_of_awake {m : Moment}
    (up : ∀ seen errand, m.flow.producer ≠ .waiting seen errand) : Watchful m :=
  fun _ seen errand asleep => absurd asleep (up seen errand)

theorem watchful_step {m : Moment} (h : Watchful m) : Watchful m.step.2 := by
  have stepped := m.stepped_step
  generalize m.step = r at stepped
  cases stepped with
  | stopped => exact watchful_of_awake fun _ _ => Producer.noConfusion
  | checked | woken => exact watchful_of_look rfl
  | held errand _ paused =>
    intro _ seen _ asleep
    obtain ⟨rfl, -⟩ := Producer.waiting.inj asleep
    exact ⟨Nat.le_refl _, fun _ => paused⟩
  | resumed errand =>
    refine watchful_of_awake fun _ _ => ?_
    cases errand <;> exact Producer.noConfusion
  | offered f _ up => exact watchful_of_awake up
  | unmoved => exact h

theorem version_serve (f : Flow) (d : Demand) :
    (f.serve d).version = f.version ∧ (f.serve d).paused = f.paused ∨
      (f.serve d).version = f.version + 1 := by
  cases d with
  | next =>
    left
    obtain h | ⟨_, rest, consumer, _, h⟩ := f.next_flow
    · rw [serve, h]
      exact ⟨rfl, rfl⟩
    · rw [serve, h]
      obtain h | ⟨_, _, _, h⟩ := grant_cases { f with buffer := rest, consumer := consumer }
      · rw [h]
        exact ⟨rfl, rfl⟩
      · rw [h]
        exact ⟨rfl, rfl⟩
  | pause | resume => exact .inr rfl
  | cancel => exact .inl ⟨rfl, rfl⟩

theorem watchful_demand {m : Moment} (h : Watchful m) (d : Demand) :
    Watchful (m.act (.demand d)) := by
  intro none seen errand asleep
  have asleep' : m.flow.producer = .waiting seen errand := by
    have kept := m.flow.kept_serve d
    change (m.flow.serve d).producer = _ at asleep
    rw [asleep] at kept
    generalize m.flow.producer = p at kept
    cases kept
    rfl
  obtain ⟨old, now⟩ := h none seen errand asleep'
  change seen ≤ (m.flow.serve d).version ∧
    (seen = (m.flow.serve d).version → (m.flow.serve d).paused = true)
  obtain ⟨version, paused⟩ | version := version_serve m.flow d
  · rw [version, paused]
    exact ⟨old, now⟩
  · rw [version]
    exact ⟨by omega, fun same => by omega⟩

theorem watchful_begin {m : Moment} (h : Watchful m) (errand : Option Item) :
    Watchful (m.begin errand) := by
  unfold begin
  split
  case h_1 => exact watchful_of_look rfl
  case h_2 => exact h

theorem watchful_act {m : Moment} (h : Watchful m) (a : Action) : Watchful (m.act a) := by
  cases a with
  | begin errand => exact watchful_begin h errand
  | step => exact watchful_step h
  | leave => exact watchful_of_awake fun _ _ => Producer.noConfusion
  | demand d => exact watchful_demand h d
  | release => exact h

theorem watchful_run {m : Moment} (h : Watchful m) (actions : List Action) :
    Watchful (m.run actions) := by
  induction actions generalizing m with
  | nil => exact h
  | cons a rest ih => exact ih (watchful_act h a)

theorem Watchful.notified {m : Moment} (h : Watchful m) (between : m.look = none) {seen : Nat}
    {errand : Option Item} (asleep : m.flow.producer = .waiting seen errand)
    (stirred : Stirred m.flow) : Notified m.flow seen := by
  obtain ⟨old, now⟩ := h between seen errand asleep
  obtain goes | closed | gone := stirred
  · refine .inl (Nat.lt_of_le_of_ne old fun same => ?_)
    rw [now same] at goes
    contradiction
  · exact .inr (.inl closed)
  · exact .inr (.inr gone)

/-- What the wait gives within `n` steps of the producer, with a consumer that does nothing. -/
def answer : Nat → Moment → Option Bool
  | 0, _ => none
  | n + 1, m =>
    match m.step with
    | (some b, _) => some b
    | (none, m) => m.answer n

theorem answer_of_some {m : Moment} {b : Bool} {n : Nat} (h : m.step.1 = some b) :
    answer (n + 1) m = some b := by
  unfold answer
  split
  case h_1 c _ eq =>
    rw [eq] at h
    exact h
  case h_2 eq =>
    rw [eq] at h
    contradiction

theorem answer_of_none {m next : Moment} {n : Nat} (h : m.step = (none, next)) :
    answer (n + 1) m = next.answer n := by rw [answer, h]

theorem answer_look {f : Flow} (stirred : Stirred f) (seen : Nat) (errand : Option Item) :
    answer 3 ⟨f, some (.all seen, errand)⟩ = some (!f.cancelled && !f.paused) := by
  cases closed : f.cancelled with
  | true =>
    refine answer_of_some ?_
    simp [step, glance, closed]
  | false =>
    have checks : step ⟨f, some (.all seen, errand)⟩ = (none, ⟨f, some (.switch, errand)⟩) := by
      simp [step, glance, closed]
    rw [answer_of_none checks]
    cases paused : f.paused with
    | false =>
      refine answer_of_some ?_
      simp [step, glance, paused]
    | true =>
      -- A pause holds nobody up only if there is no consumer.
      have gone : f.consumer = .gone := by simpa [Stirred, paused, closed] using stirred
      have sleeps : step ⟨f, some (.switch, errand)⟩ =
          (none, ⟨{ f with producer := .waiting f.version errand }, none⟩) := by
        simp [step, glance, paused, put]
      rw [answer_of_none sleeps]
      refine answer_of_some ?_
      simp [step, wake, closed, gone, Consumer.isGone]

theorem Watchful.answer_eq {m : Moment} (h : Watchful m) (between : m.look = none) {seen : Nat}
    {errand : Option Item} (asleep : m.flow.producer = .waiting seen errand)
    (stirred : Stirred m.flow) : m.answer 4 = some (!m.flow.cancelled && !m.flow.paused) := by
  have wakes : m.step = m.wake seen errand := by
    rw [step, between]
    simp only [asleep]
  cases closed : m.flow.cancelled with
  | true =>
    refine answer_of_some ?_
    simp [wakes, wake, closed]
  | false =>
    by_cases same : seen = m.flow.version
    · -- The switch is as it was seen, so it says pause: it is the consumer that is gone.
      have paused := (h between seen errand asleep).2 same
      have gone : m.flow.consumer = .gone := by simpa [Stirred, paused, closed] using stirred
      refine answer_of_some ?_
      simp [wakes, wake, closed, same, gone, paused, Consumer.isGone]
    · have looks : m.step = (none, ⟨m.flow, some (.all m.flow.version, errand)⟩) := by
        rw [wakes, wake, if_neg (by simp [closed]), if_pos (Ne.symm same)]
      rw [answer_of_none looks, answer_look stirred, closed]

/-! ## A wait that ends well -/

/-- What is left of a look in its second part began with a look at the cancellation, and the
producer has not made a step since. -/
theorem exists_check (capacity : Nat) (actions : List Action) (errand : Option Item)
    (h : ((ofCapacity capacity).run actions).look = some (.switch, errand)) :
    ∃ early late seen, actions = early ++ .step :: late ∧ .step ∉ late ∧
      ((ofCapacity capacity).run early).look = some (.all seen, errand) ∧
      ((ofCapacity capacity).run early).flow.cancelled = false := by
  induction actions using List.reverseRecOn with
  | nil => contradiction
  | append_singleton before a ih =>
    rw [run_concat] at h
    by_cases step : a = .step
    · subst step
      obtain ⟨seen, all, on⟩ := look_of_step h
      exact ⟨before, [], seen, rfl, by simp, all, on⟩
    · obtain ⟨early, late, seen, rfl, none, all, on⟩ := ih (look_of_act step h)
      refine ⟨early, late ++ [a], seen, by simp, ?_, all, on⟩
      simpa [none] using Ne.symm step

theorem paused_of_answer {m : Moment} (h : m.step.1 = some true) :
    m.flow.paused = false ∧ ∃ errand, m.look = some (.switch, errand) := by
  have stepped := m.stepped_step
  generalize m.step = r at stepped h
  cases stepped with
  | resumed errand before goes => exact ⟨goes, errand, before⟩
  | stopped => simp at h
  | checked | held | woken | offered | unmoved => contradiction

/-! ## All orders of the two ends -/

/-- The two ends of a new flow act in any order, and the consumer between the two parts of a look
too. A producer that sleeps while the flow is not paused, or is cancelled or given up, has something
to wake it, and then ends its wait without more help. A wait that ends well saw the switch not to
say pause, and the check before found no cancellation. Flows whose looks are in one piece are among
these, and there too a producer that nothing holds back is awake. -/
theorem run_wakes (capacity : Nat) (actions : List Action) (ts : List Turn) :
    let start := ofCapacity capacity
    let m := start.run actions
    let f := (Flow.ofCapacity capacity).turns ts
    (∀ seen errand, m.look = none → m.flow.producer = .waiting seen errand → Stirred m.flow →
      Notified m.flow seen ∧ m.answer 4 = some (!m.flow.cancelled && !m.flow.paused)) ∧
    (m.step.1 = some true → m.flow.paused = false ∧ ∃ early late seen errand,
      actions = early ++ .step :: late ∧ .step ∉ late ∧ m.look = some (.switch, errand) ∧
        (start.run early).look = some (.all seen, errand) ∧
          (start.run early).flow.cancelled = false) ∧
    (∃ parts, start.run parts = ⟨f, none⟩) ∧
    (∀ seen errand, f.producer = .waiting seen errand → Stirred f → f.awake seen = true) := by
  intro start m f
  have watchful : Watchful m := watchful_run (watchful_ofCapacity capacity) actions
  have open_start : Closed (Flow.ofCapacity capacity) := fun gone => by cases gone
  obtain ⟨parts, whole⟩ := exists_run_turns open_start ts
  refine ⟨?_, ?_, ⟨parts, whole⟩, ?_⟩
  · intro seen errand between asleep stirred
    exact ⟨watchful.notified between asleep stirred, watchful.answer_eq between asleep stirred⟩
  · intro answered
    obtain ⟨goes, errand, before⟩ := paused_of_answer answered
    obtain ⟨early, late, seen, eq, none, all, on⟩ := exists_check capacity actions errand before
    exact ⟨goes, early, late, seen, errand, eq, none, before, all, on⟩
  · intro seen errand asleep stirred
    -- The moments reach this flow as well, so what holds of them holds of it.
    have watchful : Watchful ⟨f, none⟩ := by
      rw [← whole]
      exact watchful_run (watchful_ofCapacity capacity) parts
    have closed : Closed f := closed_turns open_start ts
    unfold awake
    rw [Bool.or_eq_true, bne_iff_ne]
    obtain older | cancelled | gone := watchful.notified rfl asleep stirred
    · exact .inr (Nat.ne_of_gt older)
    · exact .inl cancelled
    · exact .inl (closed gone)

/-- The producer sleeps through a resumption that is taken back, and is woken by the next one. It
goes on although the cancellation came between the two parts of its look. -/
theorem run_wakes_late :
    let start := ofCapacity 1
    let sleeps : List Action := [.demand .pause, .begin none, .step, .step]
    let wavers : List Action := [.demand .resume, .demand .pause, .demand .resume]
    let cancels : List Action := [.demand .resume, .step, .step, .demand .cancel]
    let m := start.run (sleeps ++ wavers)
    let cut := start.run (sleeps ++ cancels)
    let f := (Flow.ofCapacity 1).turns [.demand .pause, .begin none, .drop]
    m.flow.producer = .waiting 1 none ∧ Notified m.flow 1 ∧ m.answer 4 = some true ∧
      cut.step.1 = some true ∧ cut.flow.cancelled = true ∧ cut.flow.paused = false ∧
      f.awake 1 = true := by
  intro start sleeps wavers cancels m cut f
  obtain ⟨wakes, -, -, awake⟩ := run_wakes 1 (sleeps ++ wavers)
    [.demand .pause, .begin none, .drop]
  obtain ⟨-, answers, -, -⟩ := run_wakes 1 (sleeps ++ cancels) []
  have between : m.look = none := by cbv
  have asleep : m.flow.producer = .waiting 1 none := by cbv
  have goes : m.flow.paused = false := by cbv
  have on : m.flow.cancelled = false := by cbv
  have given : cut.step.1 = some true := by cbv
  have closed : cut.flow.cancelled = true := by cbv
  have dropped : f.cancelled = true := by cbv
  have left : f.producer = .waiting 1 none := by cbv
  obtain ⟨notified, answer⟩ := wakes 1 none between asleep (.inl goes)
  change m.answer 4 = some (!m.flow.cancelled && !m.flow.paused) at answer
  rw [on, goes] at answer
  exact ⟨asleep, notified, answer, given, closed, (answers given).1,
    awake 1 none left (.inr (.inl dropped))⟩

end RowStore.Flow.Moment
