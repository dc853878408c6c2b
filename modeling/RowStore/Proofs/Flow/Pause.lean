import Mathlib
import RowStore.Flow.Pump
import RowStore.Proofs.Flow.Ends

/-!
# Pausing a pump

From a pause to the next resumption a pump pulls one more item or puts one more into the flow, and
not both. After a cancellation it pulls one more at most, and its second step is its last.
-/

namespace RowStore.Pump

/-- What happens next: the pump makes a step, or the consumer of its flow does something. -/
inductive Action where
  | step
  | demand (d : Flow.Demand)

/-- Counts the steps of the pump. -/
def Action.steps : Action → Nat
  | .step => 1
  | .demand _ => 0

def steps (actions : List Action) : Nat := (actions.map Action.steps).sum

def act (p : Pump) : Action → Pump
  | .step => p.step
  | .demand d => { p with flow := p.flow.serve d }

def run (p : Pump) (actions : List Action) : Pump := actions.foldl act p

/-- How many items of the source are gone when `p` has become `q`. -/
def pulled (p q : Pump) : Nat := p.source.length - q.source.length

/-- How many items the buffer has gained when `p` has become `q`. -/
def stored (p q : Pump) : Nat := q.flow.buffer.length - p.flow.buffer.length

/-- What each of the actions costs, all together. -/
def total (cost : Pump → Pump → Nat) (p : Pump) : List Action → Nat
  | [] => 0
  | a :: rest => cost p (p.act a) + total cost (p.act a) rest

/-! ## The steps of a pump -/

/-- The phase of the pump goes with the call that its producer is in. -/
structure Coherent (p : Pump) : Prop where
  here : p.phase ≠ .gone → p.flow.producer ≠ .gone
  bare : (∀ item, p.phase ≠ .sending item) → p.flow.producer.inHand = none

theorem coherent_ofItems (capacity : Nat) (items : List Item) :
    Coherent (ofItems capacity items) where
  here _ := Flow.Producer.noConfusion
  bare _ := rfl

theorem coherent_leave (p : Pump) : Coherent p.leave where
  here h := absurd rfl h
  bare _ := rfl

/-- A pump looks at the flow, to go on to the phase `next` when that succeeds. -/
inductive Calls (p : Pump) (r : Flow.Reply × Flow) : Phase → Prop where
  | waiting (phase : p.phase = .waiting) (looked : Flow.Looked p.flow none r) : Calls p r .pulling
  | sending (item : Item) (errand : Option Item) (phase : p.phase = .sending item)
      (looked : Flow.Looked p.flow errand r) : Calls p r .waiting

/-- What a step of a pump can come to. -/
inductive Stepped (p : Pump) : Pump → Prop where
  | gone (phase : p.phase = .gone) : Stepped p p
  | ends (phase : p.phase = .pulling ∨ p.phase = .fetching) : Stepped p p.leave
  | checks (phase : p.phase = .pulling) (on : p.flow.cancelled = false) :
      Stepped p { p with phase := .fetching }
  | fetches (item : Item) (rest : List Item) (phase : p.phase = .fetching)
      (source : p.source = item :: rest) :
      Stepped p { p with source := rest, phase := .sending item }
  | goesOn (r : Flow.Reply × Flow) (next : Phase) (calls : Calls p r next)
      (done : r.1 = .done true) : Stepped p { p with flow := r.2, phase := next }
  | leaves (r : Flow.Reply × Flow) (next : Phase) (accepted : Bool) (calls : Calls p r next)
      (done : r.1 = .done accepted) : Stepped p (leave { p with flow := r.2 })
  | stays (r : Flow.Reply × Flow) (next : Phase) (calls : Calls p r next)
      (unfinished : ∀ accepted, r.1 ≠ .done accepted) : Stepped p { p with flow := r.2 }

theorem stepped_after {p : Pump} {r : Flow.Reply × Flow} {next : Phase} (calls : Calls p r next) :
    Stepped p (p.after r next) := by
  unfold after
  split
  case h_1 done => exact .goesOn r next calls done
  case h_2 done => exact .leaves r next false calls done
  case h_3 unfinished₁ unfinished₂ =>
    refine .stays r next calls fun accepted done => ?_
    cases accepted with
    | true => exact unfinished₁ done
    | false => exact unfinished₂ done

theorem looked_call (p : Pump) (errand : Option Item) (here : p.flow.producer ≠ .gone) :
    ∃ inHand, Flow.Looked p.flow inHand (p.call errand) := by
  unfold call
  split
  case h_1 seen idle => exact ⟨errand, p.flow.looked_begin errand idle⟩
  case h_2 busy => exact ⟨_, p.flow.looked_step busy here⟩

theorem looked_call_none (p : Pump) (here : p.flow.producer ≠ .gone)
    (bare : p.flow.producer.inHand = none) : Flow.Looked p.flow none (p.call none) := by
  unfold call
  split
  case h_1 seen idle => exact p.flow.looked_begin none idle
  case h_2 busy => exact bare ▸ p.flow.looked_step busy here

theorem stepped_step {p : Pump} (coherent : Coherent p) : Stepped p p.step := by
  obtain ⟨here, bare⟩ := coherent
  unfold step
  cases phase : p.phase with
  | gone => exact .gone phase
  | waiting =>
    have here := here (by simp [phase])
    have bare := bare (by simp [phase])
    exact stepped_after (.waiting phase (p.looked_call_none here bare))
  | pulling =>
    simp only
    split
    case isTrue => exact .ends (.inl phase)
    case isFalse on => exact .checks phase (by simpa using on)
  | fetching =>
    cases source : p.source with
    | nil => exact .ends (.inr phase)
    | cons item rest => exact .fetches item rest phase source
  | sending item =>
    have here := here (by simp [phase])
    cases item with
    | ok r =>
      obtain ⟨_, looked⟩ := p.looked_call (some (.ok r)) here
      exact stepped_after (.sending _ _ phase looked)
    | error fault =>
      obtain ⟨_, looked⟩ := p.looked_call (some (.error fault)) here
      have calls := Calls.sending _ _ phase looked
      -- A pump with a failure in hand leaves when that is through.
      simp only
      split
      case h_1 accepted flow reply =>
        rw [reply] at calls
        exact .leaves _ _ accepted calls rfl
      case h_2 reply flow unfinished eq =>
        rw [eq] at calls
        rw [← phase]
        exact .stays _ _ calls unfinished

namespace Calls

variable {p : Pump} {r : Flow.Reply × Flow} {next : Phase}

theorem looked (calls : Calls p r next) : ∃ errand, Flow.Looked p.flow errand r := by
  cases calls with
  | waiting _ looked => exact ⟨_, looked⟩
  | sending _ errand _ looked => exact ⟨errand, looked⟩

theorem phase_ne (calls : Calls p r next) : p.phase ≠ .gone := by
  cases calls with
  | waiting phase => simp [phase]
  | sending _ _ phase => simp [phase]

end Calls

theorem coherent_step {p : Pump} (coherent : Coherent p) : Coherent p.step := by
  have stepped := stepped_step coherent
  obtain ⟨here, bare⟩ := coherent
  generalize p.step = q at stepped
  cases stepped with
  | gone => exact ⟨here, bare⟩
  | ends | leaves => exact coherent_leave _
  | checks phase => exact ⟨fun _ => here (by simp [phase]), fun _ => bare (by simp [phase])⟩
  | fetches item rest phase =>
    exact ⟨fun _ => here (by simp [phase]), fun h => absurd rfl (h item)⟩
  | goesOn r next calls done =>
    obtain ⟨errand, looked⟩ := calls.looked
    exact ⟨fun _ => looked.here (here calls.phase_ne), fun _ => looked.inHand_of_done done⟩
  | stays r next calls =>
    obtain ⟨errand, looked⟩ := calls.looked
    refine ⟨fun _ => looked.here (here calls.phase_ne), fun unsent => ?_⟩
    cases calls with
    | waiting phase looked => exact looked.inHand_of_bare (bare (by simp [phase]))
    | sending item _ phase => exact absurd phase (unsent item)

theorem coherent_act {p : Pump} (coherent : Coherent p) (a : Action) : Coherent (p.act a) := by
  cases a with
  | step => exact coherent_step coherent
  | demand d =>
    obtain ⟨here, bare⟩ := coherent
    have kept := p.flow.kept_serve d
    exact ⟨fun h => kept.here (here h), fun h => kept.inHand_eq.trans (bare h)⟩

theorem coherent_run {p : Pump} (coherent : Coherent p) (actions : List Action) :
    Coherent (p.run actions) := by
  induction actions generalizing p with
  | nil => exact coherent
  | cons a rest ih => exact ih (coherent_act coherent a)

/-! ## While the flow is paused -/

/-- Counts the item that a pause does not hold back: one that is about to be pulled, or one in hand
that is past the pause switch. -/
def moving (p : Pump) : Nat :=
  match p.phase with
  | .pulling | .fetching => 1
  | .sending _ => p.flow.producer.past
  | .waiting | .gone => 0

theorem moving_le_one (p : Pump) : p.moving ≤ 1 := by
  unfold moving
  split
  case h_3 => exact p.flow.producer.past_le_one
  all_goals omega

theorem Calls.moved_le {p q : Pump} {r : Flow.Reply × Flow} {next : Phase} (calls : Calls p r next)
    (paused : p.flow.paused = true) (coherent : Coherent p) (source : q.source = p.source)
    (buffer : q.flow.buffer = r.2.buffer) (moving : q.moving ≤ r.2.producer.past) :
    pulled p q + stored p q + q.moving ≤ p.moving := by
  obtain ⟨errand, looked⟩ := calls.looked
  have none_pulled : pulled p q = 0 := by simp [pulled, source]
  have gained : stored p q = (Flow.gained errand r.1).length := by
    simp [stored, buffer, looked.buffer_eq]
  have past : p.moving = p.flow.producer.past := by
    cases calls with
    | waiting phase =>
      rw [Flow.Producer.past_eq_zero (coherent.bare (by simp [phase]))]
      simp [Pump.moving, phase]
    | sending item _ phase => simp [Pump.moving, phase]
  have := looked.gained_le paused
  omega

theorem paused_step {p : Pump} (coherent : Coherent p) (paused : p.flow.paused = true) :
    p.step.flow.paused = true ∧ pulled p p.step + stored p p.step + p.step.moving ≤ p.moving := by
  have stepped := stepped_step coherent
  generalize p.step = q at stepped
  cases stepped with
  | gone => exact ⟨paused, by simp [pulled, stored]⟩
  | ends => exact ⟨paused, by simp [pulled, stored, leave, Flow.dropProducer, moving]⟩
  | checks phase => exact ⟨paused, by simp [pulled, stored, moving, phase]⟩
  | fetches item rest phase source =>
    have past := Flow.Producer.past_eq_zero (coherent.bare (by simp [phase]))
    exact ⟨paused, by simp [pulled, stored, moving, phase, source, past]⟩
  | goesOn r next calls done =>
    obtain ⟨errand, looked⟩ := calls.looked
    refine ⟨looked.paused_eq.trans paused, ?_⟩
    cases calls with
    | waiting phase looked =>
      -- What is not past the switch does not get past it now.
      have past := Flow.Producer.past_eq_zero (coherent.bare (by simp [phase]))
      have past' := looked.past_of_done paused done
      omega
    | sending item errand phase looked =>
      have calls := Calls.sending item errand phase looked
      exact calls.moved_le paused coherent rfl rfl (Nat.zero_le _)
  | leaves r next accepted calls done =>
    obtain ⟨errand, looked⟩ := calls.looked
    exact ⟨looked.paused_eq.trans paused,
      calls.moved_le paused coherent rfl rfl (Nat.zero_le _)⟩
  | stays r next calls =>
    obtain ⟨errand, looked⟩ := calls.looked
    refine ⟨looked.paused_eq.trans paused, calls.moved_le paused coherent rfl rfl ?_⟩
    cases calls with
    | waiting phase => simp [moving, phase]
    | sending item _ phase => simp [moving, phase]

theorem paused_act {p : Pump} (coherent : Coherent p) (paused : p.flow.paused = true) {a : Action}
    (stays : a ≠ .demand .resume) : (p.act a).flow.paused = true ∧
      pulled p (p.act a) + stored p (p.act a) + (p.act a).moving ≤ p.moving := by
  cases a with
  | step => exact paused_step coherent paused
  | demand d =>
    refine ⟨p.flow.serve_paused d paused (fun h => stays (by rw [h])), ?_⟩
    have none_pulled : pulled p (p.act (.demand d)) = 0 := by simp [pulled, act]
    have none_stored : stored p (p.act (.demand d)) = 0 :=
      Nat.sub_eq_zero_of_le (p.flow.serve_buffer_le d)
    have same : (p.act (.demand d)).moving = p.moving := by
      simp only [moving, act, (p.flow.kept_serve d).past_eq]
    omega

theorem paused_run {p : Pump} (coherent : Coherent p) (paused : p.flow.paused = true)
    {actions : List Action} (stays : .demand .resume ∉ actions) :
    total pulled p actions + total stored p actions + (p.run actions).moving ≤ p.moving := by
  induction actions generalizing p with
  | nil => exact Nat.le_of_eq (Nat.zero_add _)
  | cons a rest ih =>
    rw [List.mem_cons, not_or] at stays
    obtain ⟨first, others⟩ := stays
    obtain ⟨paused', paid⟩ := paused_act coherent paused (Ne.symm first)
    have ih := ih (coherent_act coherent a) paused' others
    simp only [total]
    change _ + _ + ((p.act a).run rest).moving ≤ _
    omega

/-! ## After the cancellation -/

/-- How many steps a pump still makes at most once its flow is cancelled. -/
def stepsLeft (p : Pump) : Nat :=
  match p.phase with
  | .gone => 0
  | .fetching => 2
  | .waiting | .pulling | .sending _ => 1

theorem cancelled_step {p : Pump} (coherent : Coherent p) (closed : p.flow.cancelled = true) :
    p.step.flow.cancelled = true ∧ p.step.stepsLeft ≤ p.stepsLeft - 1 ∧
      pulled p p.step + (p.step.stepsLeft - 1) ≤ p.stepsLeft - 1 := by
  have stepped := stepped_step coherent
  generalize p.step = q at stepped
  cases stepped with
  | gone phase => exact ⟨closed, by simp [stepsLeft, phase], by simp [pulled, stepsLeft, phase]⟩
  | ends => exact ⟨closed, by simp [stepsLeft, leave], by simp [pulled, stepsLeft, leave]⟩
  | checks _ on =>
    rw [closed] at on
    contradiction
  | fetches item rest phase source =>
    exact ⟨closed, by simp [stepsLeft, phase], by simp [pulled, stepsLeft, phase, source]⟩
  | goesOn r next calls done =>
    obtain ⟨errand, looked⟩ := calls.looked
    simp [looked.done_false closed] at done
  | leaves r next accepted calls =>
    obtain ⟨errand, looked⟩ := calls.looked
    exact ⟨looked.cancelled_eq.trans closed, by simp [stepsLeft, leave],
      by simp [pulled, stepsLeft, leave]⟩
  | stays r next calls unfinished =>
    obtain ⟨errand, looked⟩ := calls.looked
    exact absurd (looked.done_false closed) (unfinished false)

theorem cancelled_act {p : Pump} (coherent : Coherent p) (closed : p.flow.cancelled = true)
    (a : Action) : (p.act a).flow.cancelled = true ∧
      (p.act a).stepsLeft ≤ p.stepsLeft - a.steps ∧
      pulled p (p.act a) + ((p.act a).stepsLeft - 1) ≤ p.stepsLeft - 1 := by
  cases a with
  | step => exact cancelled_step coherent closed
  | demand d =>
    have none_pulled : pulled p (p.act (.demand d)) = 0 := by simp [pulled, act]
    have same : (p.act (.demand d)).stepsLeft = p.stepsLeft := rfl
    rw [none_pulled, same, Nat.zero_add]
    exact ⟨p.flow.serve_cancelled d closed, Nat.le_refl _, Nat.le_refl _⟩

theorem cancelled_run {p : Pump} (coherent : Coherent p) (closed : p.flow.cancelled = true)
    (actions : List Action) : (p.run actions).stepsLeft ≤ p.stepsLeft - steps actions ∧
      total pulled p actions + ((p.run actions).stepsLeft - 1) ≤ p.stepsLeft - 1 := by
  induction actions generalizing p with
  | nil => exact ⟨Nat.le_refl _, Nat.le_of_eq (Nat.zero_add _)⟩
  | cons a rest ih =>
    obtain ⟨closed', fewer, paid⟩ := cancelled_act coherent closed a
    obtain ⟨fewer', paid'⟩ := ih (coherent_act coherent a) closed'
    have counted : steps (a :: rest) = a.steps + steps rest := rfl
    simp only [total]
    change ((p.act a).run rest).stepsLeft ≤ _ ∧ _ + (((p.act a).run rest).stepsLeft - 1) ≤ _
    omega

theorem stepsLeft_le_two (p : Pump) : p.stepsLeft ≤ 2 := by
  unfold stepsLeft
  split <;> omega

theorem gone_of_stepsLeft {p : Pump} (none : p.stepsLeft = 0) : p.phase = .gone := by
  unfold stepsLeft at none
  split at none
  case h_1 gone => exact gone
  all_goals contradiction

/-- A pump and the consumer of its flow act in any order. From a pause to the next resumption the
pump pulls one item or puts one into the flow, and no more than that. Once the flow is cancelled it
pulls one item at most, and two of its steps bring it to its end. -/
theorem run_paused (capacity : Nat) (items : List Item) (before during : List Action) :
    let p := (ofItems capacity items).run before
    let held := p.act (.demand .pause)
    let closed := p.act (.demand .cancel)
    (.demand .resume ∉ during → total pulled held during + total stored held during ≤ 1) ∧
      total pulled closed during ≤ 1 ∧
      (2 ≤ steps during → (closed.run during).phase = .gone) := by
  intro p held closed
  have coherent : Coherent p := coherent_run (coherent_ofItems capacity items) before
  obtain ⟨fewer, paid⟩ := cancelled_run (p := closed) (coherent_act coherent _) rfl during
  have left := closed.stepsLeft_le_two
  refine ⟨fun stays => ?_, by omega, fun enough => gone_of_stepsLeft (by omega)⟩
  have moved := paused_run (p := held) (coherent_act coherent _) rfl stays
  have := held.moving_le_one
  omega

/-- The pause finds an item past the switch: it comes into the flow, and the next one is not pulled
although the consumer makes room. The cancellation finds a pump that has just seen that the flow is
not over: it pulls one item, and is gone. -/
theorem run_paused_late :
    let items : List Item := [.ok (.ofList [("id", .int 1)]), .ok (.ofList [("id", .int 2)])]
    let offered := (ofItems 1 items).run [.step, .step, .step, .step]
    let checked := (ofItems 1 items).run [.step, .step]
    let during : List Action := [.step, .demand .next, .step]
    total stored (offered.act (.demand .pause)) during = 1 ∧
      total pulled (offered.act (.demand .pause)) during = 0 ∧
      total pulled (checked.act (.demand .cancel)) during = 1 ∧
      ((checked.act (.demand .cancel)).run during).phase = .gone := by
  intro items offered checked during
  obtain ⟨held, -, -⟩ := run_paused 1 items [.step, .step, .step, .step] during
  obtain ⟨-, -, gone⟩ := run_paused 1 items [.step, .step] during
  have moved := held (by simp [during])
  have stored_one : total stored (offered.act (.demand .pause)) during = 1 := by cbv
  have pulled_one : total pulled (checked.act (.demand .cancel)) during = 1 := by cbv
  refine ⟨stored_one, ?_, pulled_one, gone (by decide)⟩
  change total pulled (offered.act (.demand .pause)) during +
    total stored (offered.act (.demand .pause)) during ≤ 1 at moved
  omega

end RowStore.Pump
