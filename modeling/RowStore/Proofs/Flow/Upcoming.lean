import Mathlib
import RowStore.Flow.Pump
import RowStore.Proofs.Flow.Ends

/-!
# Pumps that nobody holds back

While a flow is neither paused nor cancelled, each step of its pump brings an item nearer to the
consumer. What the consumer has still to get stays the same, and five steps are enough to fill an
empty buffer.
-/

namespace RowStore.Pump

/-- The items up to the first failure, that one included. -/
def upToFailure : List Item → List Item
  | [] => []
  | .ok r :: rest => .ok r :: upToFailure rest
  | .error fault :: _ => [.error fault]

theorem length_upToFailure_le (items : List Item) :
    (upToFailure items).length ≤ items.length := by
  induction items with
  | nil => exact Nat.le_refl _
  | cons item rest ih =>
    cases item with
    | ok r => simpa [upToFailure] using ih
    | error fault => simp [upToFailure]

/-- What a pump has still to put into its flow. -/
def outstanding (p : Pump) : List Item :=
  match p.phase with
  | .gone => []
  | .sending item => upToFailure (item :: p.source)
  | .waiting | .pulling | .fetching => upToFailure p.source

/-- What the consumer has still to get. -/
def upcoming (p : Pump) : List Item := p.flow.buffer ++ p.outstanding

/-! ## Pumps that nobody holds back -/

/-- Where the producer stands in a phase of a pump that was never held back. -/
inductive Stands : Phase → Flow.Producer → Prop where
  | waiting (seen : Nat) : Stands .waiting (.idle seen)
  | pulling (seen : Nat) : Stands .pulling (.idle seen)
  | fetching (seen : Nat) : Stands .fetching (.idle seen)
  | loaded (seen : Nat) (item : Item) : Stands (.sending item) (.idle seen)
  | offering (seen : Nat) (item : Item) : Stands (.sending item) (.offering seen item)
  | queued (seen : Nat) (item : Item) (granted : Bool) :
    Stands (.sending item) (.queued seen item granted)
  | gone : Stands .gone .gone

/-- A pump whose flow is neither paused nor cancelled, and was not before. -/
structure Free (p : Pump) : Prop where
  goes : p.flow.paused = false
  on : p.flow.cancelled = false
  bare : p.flow.consumer = .present []
  size : 0 < p.flow.capacity
  stands : Stands p.phase p.flow.producer
  /-- Who waits for a slot waits for one that is taken. -/
  full : ∀ seen item, p.flow.producer = .queued seen item false → p.flow.buffer ≠ []

theorem free_ofItems (capacity : Nat) (items : List Item) : Free (ofItems capacity items) where
  goes := rfl
  on := rfl
  bare := rfl
  size := Nat.le_max_right capacity 1
  stands := .waiting 0
  full _ _ := Flow.Producer.noConfusion

theorem free_drained : Free drained where
  goes := rfl
  on := rfl
  bare := rfl
  size := Nat.one_pos
  stands := .gone
  full _ _ := Flow.Producer.noConfusion

/-- What a step of such a pump can come to. -/
inductive Advanced (p : Pump) : Pump → Prop where
  | resumed (phase : p.phase = .waiting) :
      Advanced p { p with
        flow := { p.flow with producer := .idle p.flow.version }
        phase := .pulling }
  | checked (phase : p.phase = .pulling) (seen : Nat) (idle : p.flow.producer = .idle seen) :
      Advanced p { p with phase := .fetching }
  | ended (phase : p.phase = .fetching) (source : p.source = []) : Advanced p p.leave
  | fetched (item : Item) (rest : List Item) (phase : p.phase = .fetching)
      (source : p.source = item :: rest) (seen : Nat) (idle : p.flow.producer = .idle seen) :
      Advanced p { p with source := rest, phase := .sending item }
  | offered (item : Item) (phase : p.phase = .sending item) (seen : Nat)
      (idle : p.flow.producer = .idle seen) :
      Advanced p { p with flow := { p.flow with producer := .offering p.flow.version item } }
  | stored (r : Record) (phase : p.phase = .sending (.ok r)) (seen : Nat) :
      Advanced p { p with
        flow := { p.flow with buffer := p.flow.buffer ++ [.ok r], producer := .idle seen }
        phase := .waiting }
  | failed (fault : Fault) (phase : p.phase = .sending (.error fault)) (seen : Nat) :
      Advanced p (leave { p with
        flow := { p.flow with buffer := p.flow.buffer ++ [.error fault], producer := .idle seen } })
  | queued (item : Item) (phase : p.phase = .sending item) (seen : Nat)
      (full : p.flow.buffer ≠ []) :
      Advanced p { p with flow := { p.flow with producer := .queued seen item false } }
  | stuck (phase : p.phase = .gone ∨ p.flow.buffer ≠ []) : Advanced p p

theorem advanced_accept {p : Pump} {item : Item} (phase : p.phase = .sending item) (seen : Nat)
    (call : ∀ errand, p.call errand = p.flow.accept seen item) : Advanced p p.step := by
  unfold step
  rw [phase]
  cases item with
  | ok r =>
    simp only [call]
    exact .stored r phase seen
  | error fault =>
    simp only [call]
    exact .failed fault phase seen

theorem advanced_pending {p : Pump} {item : Item} (phase : p.phase = .sending item) {flow : Flow}
    (call : p.call (some item) = (.pending, flow)) (h : Advanced p { p with flow := flow }) :
    Advanced p p.step := by
  unfold step
  rw [phase]
  cases item with
  | ok r =>
    simp only [call]
    exact h
  | error fault =>
    simp only [call]
    rw [← phase]
    exact h

theorem advanced_step {p : Pump} (free : Free p) : Advanced p p.step := by
  obtain ⟨goes, on, bare, size, stands, full⟩ := free
  generalize hphase : p.phase = phase at stands
  generalize hproducer : p.flow.producer = producer at stands
  cases stands with
  | waiting seen =>
    have call : p.call none = (.done true, { p.flow with producer := .idle p.flow.version }) := by
      simp [call, hproducer, Flow.begin, Flow.look, goes, on]
    have eq : p.step = { p with
        flow := { p.flow with producer := .idle p.flow.version }, phase := .pulling } := by
      simp [step, hphase, call, after]
    rw [eq]
    exact .resumed hphase
  | pulling seen =>
    have eq : p.step = { p with phase := .fetching } := by
      simp [step, hphase, on]
    rw [eq]
    exact .checked hphase seen hproducer
  | fetching seen =>
    cases source : p.source with
    | nil =>
      have eq : p.step = p.leave := by simp [step, hphase, source]
      rw [eq]
      exact .ended hphase source
    | cons item rest =>
      have eq : p.step = { p with source := rest, phase := .sending item } := by
        simp [step, hphase, source]
      rw [eq]
      exact .fetched item rest hphase source seen hproducer
  | loaded seen item =>
    refine advanced_pending hphase ?_ (.offered item hphase seen hproducer)
    simp [call, hproducer, Flow.begin, Flow.look, goes, on]
  | offering seen item =>
    have call : ∀ errand, p.call errand = p.flow.offer seen item := by
      simp [call, hproducer, Flow.step]
    by_cases room : 0 < p.flow.free
    · refine advanced_accept hphase seen fun errand => ?_
      simp [call, Flow.offer, on, room]
    · refine advanced_pending hphase ?_ (.queued item hphase seen ?_)
      · simp [call, Flow.offer, on, room]
      · -- An empty buffer would have had room.
        intro empty
        rw [Flow.free_eq, hproducer, empty] at room
        simp only [List.length_nil, Flow.Producer.promised] at room
        omega
  | queued seen item granted =>
    cases granted with
    | true =>
      refine advanced_accept hphase seen fun errand => ?_
      simp [call, hproducer, Flow.step, on]
    | false =>
      refine advanced_pending hphase ?_ (.stuck (.inr (full seen item hproducer)))
      simp [call, hproducer, Flow.step, on]
  | gone =>
    have eq : p.step = p := by simp [step, hphase]
    rw [eq]
    exact .stuck (.inl hphase)

theorem Free.of_flow {p q : Pump} (free : Free p) {buffer : List Item} {producer : Flow.Producer}
    (flow : q.flow = { p.flow with buffer := buffer, producer := producer })
    (stands : Stands q.phase producer)
    (full : ∀ seen item, producer = .queued seen item false → buffer ≠ []) : Free q := by
  obtain ⟨goes, on, bare, size, -, -⟩ := free
  obtain ⟨qflow, source, phase⟩ := q
  subst flow
  exact ⟨goes, on, bare, size, stands, full⟩

theorem free_step {p : Pump} (free : Free p) : Free p.step := by
  have advanced := advanced_step free
  generalize p.step = q at advanced
  cases advanced with
  | resumed => exact free.of_flow rfl (.pulling _) fun _ _ => Flow.Producer.noConfusion
  | checked _ seen idle =>
    exact free.of_flow rfl (by rw [idle]; exact .fetching seen) free.full
  | ended => exact free.of_flow rfl .gone fun _ _ => Flow.Producer.noConfusion
  | fetched item _ _ _ seen idle =>
    exact free.of_flow rfl (by rw [idle]; exact .loaded seen item) free.full
  | offered item phase =>
    exact free.of_flow rfl (by rw [phase]; exact .offering _ item) fun _ _ =>
      Flow.Producer.noConfusion
  | stored _ _ seen => exact free.of_flow rfl (.waiting seen) fun _ _ => Flow.Producer.noConfusion
  | failed => exact free.of_flow rfl .gone fun _ _ => Flow.Producer.noConfusion
  | queued item phase seen full =>
    exact free.of_flow rfl (by rw [phase]; exact .queued seen item false) fun _ _ _ => full
  | stuck => exact free

theorem upcoming_step {p : Pump} (free : Free p) : p.step.upcoming = p.upcoming := by
  have advanced := advanced_step free
  generalize p.step = q at advanced
  cases advanced with
  | resumed phase => simp [upcoming, outstanding, phase]
  | checked phase => simp [upcoming, outstanding, phase]
  | ended phase source =>
    simp [upcoming, outstanding, phase, source, upToFailure, leave, Flow.dropProducer]
  | fetched item rest phase source => simp [upcoming, outstanding, phase, source]
  | offered item phase => simp [upcoming, outstanding, phase]
  | stored r phase => simp [upcoming, outstanding, phase, upToFailure]
  | failed fault phase =>
    simp [upcoming, outstanding, phase, upToFailure, leave, Flow.dropProducer]
  | queued item phase => simp [upcoming, outstanding, phase]
  | stuck => rfl

/-! ## Until there is an item -/

/-- The steps that bring an item into an empty buffer, or the pump to its end. -/
def distance (p : Pump) : Nat :=
  match p.flow.buffer, p.phase with
  | _ :: _, _ | [], .gone => 0
  | [], .waiting => 5
  | [], .pulling => 4
  | [], .fetching => 3
  | [], .sending _ =>
    match p.flow.producer with
    | .idle _ => 2
    | _ => 1

theorem distance_of_buffer {p : Pump} (h : p.flow.buffer ≠ []) : p.distance = 0 := by
  obtain ⟨item, rest, h⟩ := List.exists_cons_of_ne_nil h
  simp [distance, h]

theorem distance_of_gone {p : Pump} (h : p.phase = .gone) : p.distance = 0 := by
  unfold distance
  split <;> simp_all

theorem distance_le (p : Pump) : p.distance ≤ 5 := by
  unfold distance
  split
  case h_6 => split <;> omega
  all_goals omega

theorem distance_step {p : Pump} (free : Free p) : p.step.distance ≤ p.distance - 1 := by
  have advanced := advanced_step free
  generalize p.step = q at advanced
  by_cases empty : p.flow.buffer = []
  · cases advanced with
    | resumed phase | checked phase => simp [distance, empty, phase]
    | ended | failed => rw [distance_of_gone rfl]; exact Nat.zero_le _
    | fetched item rest phase _ seen idle | offered item phase seen idle =>
      simp [distance, empty, phase, idle]
    | stored => rw [distance_of_buffer (by simp)]; exact Nat.zero_le _
    | queued _ _ _ full => exact absurd empty full
    | stuck phase =>
      have := distance_of_gone (phase.resolve_right fun full => full empty)
      omega
  · -- No step of the pump takes anything out.
    have kept : q.flow.buffer ≠ [] := by
      cases advanced with
      | stored | failed => simp [leave, Flow.dropProducer]
      | resumed | checked | ended | fetched | offered | queued | stuck => exact empty
    rw [distance_of_buffer kept]
    exact Nat.zero_le _

theorem ready_of_distance {p : Pump} (h : p.distance = 0) :
    p.flow.buffer ≠ [] ∨ p.phase = .gone := by
  unfold distance at h
  split at h
  case h_1 full => exact .inl (by simp [full])
  case h_2 gone => exact .inr gone
  case h_6 => split at h <;> contradiction
  all_goals contradiction

theorem free_turn {p : Pump} (free : Free p) : Free p.turn :=
  free_step (free_step (free_step (free_step (free_step free))))

theorem upcoming_turn {p : Pump} (free : Free p) : p.turn.upcoming = p.upcoming := by
  have free₁ := free_step free
  have free₂ := free_step free₁
  have free₃ := free_step free₂
  have free₄ := free_step free₃
  calc p.turn.upcoming
      = p.step.step.step.step.upcoming := upcoming_step free₄
    _ = p.step.step.step.upcoming := upcoming_step free₃
    _ = p.step.step.upcoming := upcoming_step free₂
    _ = p.step.upcoming := upcoming_step free₁
    _ = p.upcoming := upcoming_step free

theorem ready_turn {p : Pump} (free : Free p) : p.turn.flow.buffer ≠ [] ∨ p.turn.phase = .gone := by
  have free₁ := free_step free
  have free₂ := free_step free₁
  have free₃ := free_step free₂
  have free₄ := free_step free₃
  refine ready_of_distance (Nat.le_zero.mp ?_)
  have := p.distance_le
  have := distance_step free
  have := distance_step free₁
  have := distance_step free₂
  have := distance_step free₃
  have := distance_step free₄
  change p.step.step.step.step.step.distance ≤ 0
  omega

/-! ## Taking -/

theorem free_grant {p : Pump} (free : Free p) (rest : List Item) :
    Free { p with flow := Flow.grant { p.flow with buffer := rest } } := by
  have ⟨_, on, _, _, stands, _⟩ := free
  unfold Flow.grant
  split
  case h_1 seen item waits =>
    rw [if_neg (by simp [on])]
    have phase : Stands p.phase (.queued seen item true) := by
      change p.flow.producer = _ at waits
      rw [waits] at stands
      generalize p.phase = phase at stands
      cases stands
      exact .queued seen item true
    exact free.of_flow rfl phase fun _ _ h => by cases h
  case h_2 other =>
    exact free.of_flow rfl stands fun seen item waits => absurd waits (other seen item)

theorem exhausted_iff {p : Pump} (free : Free p) :
    p.flow.exhausted = true ↔ p.phase = .gone := by
  have ⟨_, on, _, _, stands, _⟩ := free
  unfold Flow.exhausted
  generalize p.flow.producer = producer at stands
  generalize p.phase = phase at stands
  cases stands with
  | queued seen item granted => cases granted <;> simp [on]
  | waiting | pulling | fetching | loaded | offering | gone => simp [on]

end RowStore.Pump
