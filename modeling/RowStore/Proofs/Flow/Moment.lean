import RowStore.Proofs.Flow.Ends

/-!
# Looks in two parts

A look of the producer has two parts, and the consumer can act between them: first the producer sees
whether the flow is cancelled, then where the pause switch stands. A flow is seen here at such a
moment too, and its looks in one piece are the special case in which nothing comes between.
-/

namespace RowStore.Flow

def Consumer.isGone : Consumer → Bool
  | .gone => true
  | .present _ => false

/-- What is left of a look. -/
inductive Glance where
  /-- Both parts, with the version of the switch that was seen before. -/
  | all (seen : Nat)
  /-- The pause switch. The flow was not cancelled a moment ago. -/
  | switch

/-- A flow whose producer can be in the middle of a look. -/
structure Moment where
  flow : Flow
  /-- The look that is not over yet, with what its call has to send. -/
  look : Option (Glance × Option Item)

namespace Moment

/-- What one of the two ends does next. A consumer that goes away releases the flow first, and the
cancellation follows. -/
inductive Action where
  | begin (errand : Option Item)
  | step
  | leave
  | demand (d : Demand)
  | release

def ofCapacity (capacity : Nat) : Moment := ⟨.ofCapacity capacity, none⟩

/-- The end of a look. -/
def put (m : Moment) (p : Producer) : Moment := ⟨{ m.flow with producer := p }, none⟩

def begin (m : Moment) (errand : Option Item) : Moment :=
  match m.look, m.flow.producer with
  | none, .idle seen => { m with look := some (.all seen, errand) }
  | _, _ => m

/-- Where a producer is that has seen the flow not paused. -/
def passed (version : Nat) : Option Item → Producer
  | none => .idle version
  | some item => .offering version item

/-- The next part of a look, with the answer to the wait if that is over. -/
def glance (m : Moment) (errand : Option Item) : Glance → Option Bool × Moment
  | .all seen =>
    if m.flow.cancelled then (some false, m.put (.idle seen))
    else (none, { m with look := some (.switch, errand) })
  | .switch =>
    if m.flow.paused then (none, m.put (.waiting m.flow.version errand))
    else (some true, m.put (passed m.flow.version errand))

/-- A sleeping producer is woken by the cancellation, by a new version of the switch, or by the loss
of the switch, in this order. Only a new version makes it look again. -/
def wake (m : Moment) (seen : Nat) (errand : Option Item) : Option Bool × Moment :=
  if m.flow.cancelled then (some false, m.put (.idle seen))
  else if m.flow.version ≠ seen then (none, { m with look := some (.all m.flow.version, errand) })
  else if m.flow.consumer.isGone then (some false, m.put (.idle seen))
  else (none, m)

def step (m : Moment) : Option Bool × Moment :=
  match m.look with
  | some (g, errand) => m.glance errand g
  | none =>
    match m.flow.producer with
    | .gone | .idle _ => (none, m)
    | .waiting seen errand => m.wake seen errand
    | .offering seen _ | .queued seen _ _ =>
      if m.flow.consumer.isGone then (none, m.put (.idle seen)) else (none, ⟨m.flow.step.2, none⟩)

def release (m : Moment) : Moment :=
  { m with flow := { m.flow with buffer := [], consumer := .gone } }

def act (m : Moment) : Action → Moment
  | .begin errand => m.begin errand
  | .step => m.step.2
  | .leave => m.put .gone
  | .demand d => { m with flow := m.flow.serve d }
  | .release => m.release

def run (m : Moment) (actions : List Action) : Moment := actions.foldl act m

theorem run_concat (m : Moment) (actions : List Action) (a : Action) :
    m.run (actions ++ [a]) = (m.run actions).act a := by
  rw [run, List.foldl_append]
  rfl

theorem run_append (m : Moment) (actions more : List Action) :
    m.run (actions ++ more) = (m.run actions).run more := List.foldl_append

/-! ## One step -/

/-- What a step of the producer can come to. -/
inductive Stepped (m : Moment) : Option Bool × Moment → Prop where
  | stopped (seen : Nat) : Stepped m (some false, m.put (.idle seen))
  | checked (seen : Nat) (errand : Option Item) (before : m.look = some (.all seen, errand))
      (on : m.flow.cancelled = false) : Stepped m (none, { m with look := some (.switch, errand) })
  | held (errand : Option Item) (before : m.look = some (.switch, errand))
      (paused : m.flow.paused = true) : Stepped m (none, m.put (.waiting m.flow.version errand))
  | resumed (errand : Option Item) (before : m.look = some (.switch, errand))
      (goes : m.flow.paused = false) :
      Stepped m (some true, m.put (passed m.flow.version errand))
  | woken (errand : Option Item) (before : m.look = none) :
      Stepped m (none, { m with look := some (.all m.flow.version, errand) })
  | offered (f : Flow) (before : m.look = none)
      (up : ∀ seen errand, f.producer ≠ .waiting seen errand) : Stepped m (none, ⟨f, none⟩)
  | unmoved (before : m.look = none) : Stepped m (none, m)

theorem step_producer_ne (f : Flow) (idle : ∀ seen, f.producer ≠ .idle seen)
    (here : f.producer ≠ .gone) (past : f.producer.past = 1) (seen : Nat) (errand : Option Item) :
    f.step.2.producer ≠ .waiting seen errand := by
  have looked := f.looked_step idle here
  generalize f.step = r at looked
  cases looked with
  | refused | resumed | passed | accepted | full => exact Producer.noConfusion
  | held _ _ before =>
    rw [past] at before
    contradiction
  | unmoved =>
    intro asleep
    rw [asleep] at past
    contradiction

theorem stepped_glance {m : Moment} {g : Glance} {errand : Option Item}
    (before : m.look = some (g, errand)) : Stepped m (m.glance errand g) := by
  cases g with
  | all seen =>
    simp only [glance]
    split
    case isTrue => exact .stopped seen
    case isFalse on => exact .checked seen errand before (eq_false_of_ne_true on)
  | switch =>
    simp only [glance]
    split
    case isTrue paused => exact .held errand before paused
    case isFalse goes => exact .resumed errand before (eq_false_of_ne_true goes)

theorem stepped_wake {m : Moment} (seen : Nat) (errand : Option Item) (before : m.look = none) :
    Stepped m (m.wake seen errand) := by
  unfold wake
  split
  case isTrue => exact .stopped seen
  case isFalse =>
    split
    case isTrue => exact .woken errand before
    case isFalse =>
      split
      case isTrue => exact .stopped seen
      case isFalse => exact .unmoved before

theorem stepped_step (m : Moment) : Stepped m m.step := by
  unfold step
  cases before : m.look with
  | some look => exact stepped_glance before
  | none =>
    cases here : m.flow.producer with
    | gone | idle => exact .unmoved before
    | waiting seen errand => exact stepped_wake seen errand before
    | offering seen item | queued seen item granted =>
      simp only
      split
      case isTrue => exact .offered _ before fun _ _ => Producer.noConfusion
      case isFalse =>
        refine .offered _ before fun seen errand => ?_
        exact step_producer_ne m.flow (by simp [here]) (by simp [here]) (by rw [here]; rfl) seen
          errand

theorem look_of_act {m : Moment} {a : Action} {errand : Option Item} (other : a ≠ .step)
    (h : (m.act a).look = some (.switch, errand)) : m.look = some (.switch, errand) := by
  cases a with
  | begin next =>
    simp only [act, begin] at h
    split at h
    case h_1 =>
      obtain ⟨⟨⟩, -⟩ := Prod.mk.inj (Option.some.inj h)
    case h_2 => exact h
  | step => exact absurd rfl other
  | leave => contradiction
  | demand d => exact h
  | release => exact h

theorem look_of_step {m : Moment} {errand : Option Item}
    (h : m.step.2.look = some (.switch, errand)) :
    ∃ seen, m.look = some (.all seen, errand) ∧ m.flow.cancelled = false := by
  have stepped := m.stepped_step
  generalize m.step = r at stepped h
  cases stepped with
  | checked seen other before on =>
    obtain ⟨-, rfl⟩ := Prod.mk.inj (Option.some.inj h)
    exact ⟨seen, before, on⟩
  | woken => obtain ⟨⟨⟩, -⟩ := Prod.mk.inj (Option.some.inj h)
  | stopped | held | resumed | offered => contradiction
  | unmoved before =>
    rw [before] at h
    contradiction

end Moment

/-! ## Looks without a break -/

/-- What one of the ends does to a flow, with each look in one piece. -/
inductive Turn where
  | begin (errand : Option Item)
  | step
  | leave
  | demand (d : Demand)
  | drop

def turn (f : Flow) : Turn → Flow
  | .begin errand => (f.begin errand).2
  | .step => f.step.2
  | .leave => f.dropProducer
  | .demand d => f.serve d
  | .drop => f.dropConsumer

def turns (f : Flow) (ts : List Turn) : Flow := ts.foldl turn f

theorem gone_of_serve {f : Flow} {d : Demand} (gone : (f.serve d).consumer = .gone) :
    f.consumer = .gone := by
  cases d with
  | next =>
    cases here : f.consumer with
    | gone => rfl
    | present stages =>
      simp only [serve, next, here] at gone
      split at gone
      case h_1 => exact here.symm.trans gone
      case h_2 | h_3 =>
        rw [grant_consumer] at gone
        contradiction
  | pause | resume | cancel => exact gone

/-- A consumer that is gone has cancelled. -/
def Closed (f : Flow) : Prop := f.consumer = .gone → f.cancelled = true

theorem Looked.closed {f : Flow} {errand : Option Item} {r : Reply × Flow}
    (looked : Looked f errand r) (h : Closed f) : Closed r.2 := by
  intro gone
  rw [looked.consumer_eq] at gone
  rw [looked.cancelled_eq]
  exact h gone

theorem Declined.closed {f : Flow} {r : Reply × Flow} (declined : Declined f r) (h : Closed f) :
    Closed r.2 := by
  rw [declined.1]
  exact h

theorem closed_turn {f : Flow} (h : Closed f) (t : Turn) : Closed (f.turn t) := by
  cases t with
  | begin errand =>
    obtain looked | declined := f.begin_cases errand
    · exact looked.closed h
    · exact declined.closed h
  | step =>
    obtain looked | declined := f.step_cases
    · exact looked.closed h
    · exact declined.closed h
  | leave => exact h
  | demand d => exact fun gone => f.serve_cancelled d (h (gone_of_serve gone))
  | drop => exact fun _ => rfl

theorem closed_turns {f : Flow} (h : Closed f) (ts : List Turn) : Closed (f.turns ts) := by
  induction ts generalizing f with
  | nil => exact h
  | cons t rest ih => exact ih (closed_turn h t)

namespace Moment

/-- The two parts of a look, one right after the other, are a look of the flow. -/
theorem run_look (f : Flow) (seen : Nat) (errand : Option Item) :
    run ⟨f, some (.all seen, errand)⟩ [.step, .step] = ⟨(f.look seen errand).2, none⟩ := by
  cases closed : f.cancelled with
  | true => simp [run, act, step, glance, Flow.look, put, closed]
  | false =>
    cases paused : f.paused with
    | true => simp [run, act, step, glance, Flow.look, put, closed, paused]
    | false =>
      cases errand <;> simp [run, act, step, glance, Flow.look, put, passed, closed, paused]

theorem exists_run_begin (f : Flow) (errand : Option Item) :
    ∃ actions, run ⟨f, none⟩ actions = ⟨(f.begin errand).2, none⟩ := by
  cases here : f.producer with
  | idle seen =>
    have begins : begin ⟨f, none⟩ errand = ⟨f, some (.all seen, errand)⟩ := by
      simp [begin, here]
    refine ⟨[.begin errand, .step, .step], ?_⟩
    change run (begin ⟨f, none⟩ errand) [.step, .step] = _
    rw [begins, run_look]
    simp [Flow.begin, here]
  | gone | waiting | offering | queued => exact ⟨[], by simp [run, Flow.begin, here]⟩

theorem exists_run_step {f : Flow} (h : Closed f) :
    ∃ actions, run ⟨f, none⟩ actions = ⟨f.step.2, none⟩ := by
  cases here : f.producer with
  | gone | idle => exact ⟨[], by simp [run, Flow.step, here]⟩
  | waiting seen errand =>
    have wakes : step ⟨f, none⟩ = wake ⟨f, none⟩ seen errand := by simp [step, here]
    cases closed : f.cancelled with
    | true =>
      refine ⟨[.step], ?_⟩
      simp [run, act, wakes, wake, put, Flow.step, here, Flow.awake, Flow.look, closed]
    | false =>
      -- Only a new version starts a look: a step to wake up, and two for its parts.
      by_cases same : f.version = seen
      · exact ⟨[], by simp [run, Flow.step, here, Flow.awake, closed, same]⟩
      · refine ⟨[.step, .step, .step], ?_⟩
        have looks : (step ⟨f, none⟩).2 = ⟨f, some (.all f.version, errand)⟩ := by
          simp [wakes, wake, closed, same]
        change run (step ⟨f, none⟩).2 [.step, .step] = _
        rw [looks, run_look]
        simp [Flow.step, here, Flow.awake, Flow.look, closed, same]
  | offering seen item | queued seen item granted =>
    refine ⟨[.step], ?_⟩
    cases gone : f.consumer.isGone with
    | false => simp [run, act, step, here, gone]
    | true =>
      -- Without a consumer the flow counts as cancelled.
      have closed : f.cancelled = true := by
        refine h ?_
        unfold Consumer.isGone at gone
        split at gone
        case h_1 eq => exact eq
        case h_2 => contradiction
      simp [run, act, step, here, gone, put, Flow.step, Flow.offer, closed]

/-- Whatever happens to a flow with looks in one piece can happen to it. -/
theorem exists_run_turns {f : Flow} (h : Closed f) (ts : List Turn) :
    ∃ actions, run ⟨f, none⟩ actions = ⟨f.turns ts, none⟩ := by
  induction ts generalizing f with
  | nil => exact ⟨[], rfl⟩
  | cons t rest ih =>
    obtain ⟨first, turned⟩ : ∃ actions, run ⟨f, none⟩ actions = ⟨f.turn t, none⟩ := by
      cases t with
      | begin errand => exact exists_run_begin f errand
      | step => exact exists_run_step h
      | leave => exact ⟨[.leave], rfl⟩
      | demand d => exact ⟨[.demand d], rfl⟩
      | drop => exact ⟨[.release, .demand .cancel], rfl⟩
    obtain ⟨others, done⟩ := ih (closed_turn h t)
    refine ⟨first ++ others, ?_⟩
    rw [run_append, turned, done]
    rfl

end Moment

end RowStore.Flow
