import RowStore.Flow.Basic

/-!
# The two ends of a flow

What one step of the producer, or of the consumer, can do to a flow. The laws about all orders in
which the two ends act rest on these cases alone.
-/

namespace RowStore.Flow

/-! ## The producer -/

namespace Producer

/-- The item of the call that is not over yet. -/
def inHand : Producer → Option Item
  | .waiting _ errand => errand
  | .offering _ item | .queued _ item _ => some item
  | .gone | .idle _ => none

/-- Counts the item that the pause switch cannot hold back any more. -/
def past : Producer → Nat
  | .offering _ _ | .queued _ _ _ => 1
  | _ => 0

/-- Counts the slot that is granted and not filled. -/
def promised : Producer → Nat
  | .queued _ _ true => 1
  | _ => 0

theorem promised_le_one (p : Producer) : p.promised ≤ 1 := by
  unfold promised
  split <;> omega

theorem past_le_one (p : Producer) : p.past ≤ 1 := by
  unfold past
  split <;> omega

theorem past_eq_zero {p : Producer} (h : p.inHand = none) : p.past = 0 := by
  cases p <;> simp_all [inHand, past]

/-- A producer that is where it was, but for a slot that it may have got in the queue. -/
inductive Kept (p : Producer) : Producer → Prop where
  | same : Kept p p
  | granted (seen : Nat) (item : Item) (queued : p = .queued seen item false) :
      Kept p (.queued seen item true)

namespace Kept

variable {p q : Producer}

theorem inHand_eq (kept : Kept p q) : q.inHand = p.inHand := by
  cases kept with
  | same => rfl
  | granted seen item queued => rw [queued]; rfl

theorem past_eq (kept : Kept p q) : q.past = p.past := by
  cases kept with
  | same => rfl
  | granted seen item queued => rw [queued]; rfl

theorem here (kept : Kept p q) (here : p ≠ .gone) : q ≠ .gone := by
  cases kept with
  | same => exact here
  | granted => exact Producer.noConfusion

theorem not_waiting (kept : Kept p q) {seen : Nat} {errand : Option Item}
    (awake : p ≠ .waiting seen errand) : q ≠ .waiting seen errand := by
  cases kept with
  | same => exact awake
  | granted => exact Producer.noConfusion

end Kept

end Producer

theorem free_eq (f : Flow) : f.free = f.capacity - f.buffer.length - f.producer.promised := rfl

/-- What a look of the producer at the flow can come to, with `errand` in hand. -/
inductive Looked (f : Flow) (errand : Option Item) : Reply × Flow → Prop where
  | refused (seen : Nat) (closed : f.cancelled = true) :
      Looked f errand (.done false, { f with producer := .idle seen })
  | held (on : f.cancelled = false) (stopped : f.paused = true) (before : f.producer.past = 0) :
      Looked f errand (.pending, { f with producer := .waiting f.version errand })
  | resumed (on : f.cancelled = false) (goes : f.paused = false) (before : f.producer.past = 0)
      (bare : errand = none) : Looked f errand (.done true, { f with producer := .idle f.version })
  | passed (item : Item) (on : f.cancelled = false) (goes : f.paused = false)
      (before : f.producer.past = 0) (carried : errand = some item) :
      Looked f errand (.pending, { f with producer := .offering f.version item })
  | accepted (seen : Nat) (item : Item) (on : f.cancelled = false) (beyond : f.producer.past = 1)
      (carried : errand = some item)
      (room : f.buffer.length < f.capacity ∨ f.producer.promised = 1) :
      Looked f errand
        (.done true, { f with buffer := f.buffer ++ [item], producer := .idle seen })
  | full (seen : Nat) (item : Item) (on : f.cancelled = false) (beyond : f.producer.past = 1)
      (carried : errand = some item) :
      Looked f errand (.pending, { f with producer := .queued seen item false })
  | unmoved (on : f.cancelled = false) : Looked f errand (.pending, f)

/-- What comes into the buffer when a call with `errand` in hand gets this reply. -/
def gained (errand : Option Item) : Reply → List Item
  | .done true => errand.toList
  | _ => []

namespace Looked

variable {f : Flow} {errand : Option Item} {r : Reply × Flow}

theorem capacity_eq (looked : Looked f errand r) : r.2.capacity = f.capacity := by
  cases looked <;> rfl

theorem consumer_eq (looked : Looked f errand r) : r.2.consumer = f.consumer := by
  cases looked <;> rfl

theorem cancelled_eq (looked : Looked f errand r) : r.2.cancelled = f.cancelled := by
  cases looked <;> rfl

theorem paused_eq (looked : Looked f errand r) : r.2.paused = f.paused := by
  cases looked <;> rfl

theorem buffer_eq (looked : Looked f errand r) : r.2.buffer = f.buffer ++ gained errand r.1 := by
  cases looked with
  | accepted seen item _ _ carried => rw [carried]; rfl
  | resumed _ _ _ bare => simp [gained, bare]
  | refused | held | passed | full | unmoved => simp [gained]

theorem done_false (looked : Looked f errand r) (closed : f.cancelled = true) :
    r.1 = .done false := by
  cases looked with
  | refused => rfl
  | held on | resumed on | passed _ on | accepted _ _ on | full _ _ on | unmoved on =>
    rw [closed] at on
    contradiction

theorem inHand_of_done {accepted : Bool} (looked : Looked f errand r)
    (done : r.1 = .done accepted) : r.2.producer.inHand = none := by
  cases looked with
  | refused | resumed | accepted => rfl
  | held | passed | full | unmoved => contradiction

theorem inHand_of_bare (looked : Looked f none r) (bare : f.producer.inHand = none) :
    r.2.producer.inHand = none := by
  cases looked with
  | refused | held | resumed => rfl
  | passed _ _ _ _ carried | accepted _ _ _ _ carried | full _ _ _ _ carried => contradiction
  | unmoved => exact bare

theorem here (looked : Looked f errand r) (here : f.producer ≠ .gone) : r.2.producer ≠ .gone := by
  cases looked with
  | refused | held | resumed | passed | accepted | full => exact Producer.noConfusion
  | unmoved => exact here

theorem gained_le (looked : Looked f errand r) (paused : f.paused = true) :
    (gained errand r.1).length + r.2.producer.past ≤ f.producer.past := by
  cases looked with
  | refused | held => exact Nat.zero_le _
  | resumed _ goes | passed _ _ goes =>
    rw [paused] at goes
    contradiction
  | accepted seen item _ beyond carried => rw [beyond, carried]; exact Nat.le_refl 1
  | full seen item _ beyond => rw [beyond]; exact Nat.le_refl 1
  | unmoved => exact Nat.le_of_eq (Nat.zero_add _)

theorem past_of_done (looked : Looked f errand r) (paused : f.paused = true)
    (done : r.1 = .done true) : f.producer.past = 1 := by
  cases looked with
  | refused => simp at done
  | held | passed | full | unmoved => contradiction
  | resumed _ goes =>
    rw [paused] at goes
    contradiction
  | accepted _ _ _ beyond => exact beyond

theorem room_le (looked : Looked f errand r)
    (room : f.buffer.length + f.producer.promised ≤ f.capacity) :
    r.2.buffer.length + r.2.producer.promised ≤ f.capacity := by
  cases looked with
  | accepted seen item _ _ _ space =>
    simp only [List.length_append, List.length_singleton, Producer.promised]
    omega
  | refused | held | resumed | passed | full =>
    simp only [Producer.promised]
    omega
  | unmoved => exact room

end Looked

theorem looked_look (f : Flow) (seen : Nat) (errand : Option Item) (h : f.producer.past = 0) :
    Looked f errand (f.look seen errand) := by
  unfold look
  split
  case isTrue closed => exact .refused seen closed
  case isFalse on =>
    have on := eq_false_of_ne_true on
    split
    case isTrue stopped => exact .held on stopped h
    case isFalse goes =>
      have goes := eq_false_of_ne_true goes
      cases errand with
      | none => exact .resumed on goes h rfl
      | some item => exact .passed item on goes h rfl

theorem looked_offer (f : Flow) (seen : Nat) (item : Item) (h : f.producer = .offering seen item) :
    Looked f (some item) (f.offer seen item) := by
  have beyond : f.producer.past = 1 := by rw [h]; rfl
  have none_promised : f.producer.promised = 0 := by rw [h]; rfl
  unfold offer
  split
  case isTrue closed => exact .refused seen closed
  case isFalse on =>
    have on := eq_false_of_ne_true on
    split
    case isTrue free =>
      rw [free_eq, none_promised] at free
      exact .accepted seen item on beyond rfl (.inl (by omega))
    case isFalse => exact .full seen item on beyond rfl

/-- A reply that ends no call and comes with no change. -/
def Declined (f : Flow) (r : Reply × Flow) : Prop := r.2 = f ∧ ∀ accepted, r.1 ≠ .done accepted

theorem looked_begin (f : Flow) (errand : Option Item) {seen : Nat} (h : f.producer = .idle seen) :
    Looked f errand (f.begin errand) := by
  unfold begin
  rw [h]
  exact looked_look f seen errand (by rw [h]; rfl)

theorem begin_cases (f : Flow) (errand : Option Item) :
    Looked f errand (f.begin errand) ∨ Declined f (f.begin errand) := by
  cases h : f.producer with
  | idle seen => exact .inl (looked_begin f errand h)
  | gone | waiting | offering | queued => exact .inr (by simp [Declined, begin, h])

theorem looked_step (f : Flow) (idle : ∀ seen, f.producer ≠ .idle seen)
    (here : f.producer ≠ .gone) : Looked f f.producer.inHand f.step := by
  unfold step
  cases h : f.producer with
  | gone => exact absurd h here
  | idle seen => exact absurd h (idle seen)
  | waiting seen errand =>
    simp only
    split
    case isTrue => exact looked_look f seen errand (by rw [h]; rfl)
    case isFalse asleep =>
      have on : f.cancelled = false := by
        simp only [awake, Bool.or_eq_true, not_or, Bool.not_eq_true] at asleep
        exact asleep.1
      exact .unmoved on
  | offering seen item => exact looked_offer f seen item h
  | queued seen item granted =>
    simp only
    split
    case isTrue closed => exact .refused seen closed
    case isFalse on =>
      have on := eq_false_of_ne_true on
      split
      case isTrue given =>
        refine .accepted seen item on (by rw [h]; rfl) rfl (.inr ?_)
        rw [h, given]
        rfl
      case isFalse => exact .unmoved on

theorem step_cases (f : Flow) : Looked f f.producer.inHand f.step ∨ Declined f f.step := by
  cases h : f.producer with
  | gone | idle => exact .inr (by simp [Declined, step, h])
  | waiting | offering | queued =>
    rw [← h]
    exact .inl (looked_step f (by simp [h]) (by simp [h]))

theorem trySend_records {f : Flow} {records : List Record} (on : f.cancelled = false)
    (idle : f.producer.promised = 0) (room : f.buffer.length + records.length ≤ f.capacity) :
    records.foldl (fun f r => (f.trySend (.ok r)).2) f =
      { f with buffer := f.buffer ++ records.map .ok } := by
  induction records generalizing f with
  | nil => rw [List.foldl_nil, List.map_nil, List.append_nil]
  | cons r rest ih =>
    rw [List.length_cons] at room
    have accepted : (f.trySend (.ok r)).2 = { f with buffer := f.buffer ++ [.ok r] } := by
      have free : f.free ≠ 0 := by
        rw [free_eq]
        omega
      simp [trySend, on, free]
    have others := ih (f := { f with buffer := f.buffer ++ [.ok r] }) on idle (by
      simp only [List.length_append, List.length_singleton]
      omega)
    rw [List.foldl_cons, accepted, others]
    simp

/-- No record is refused: the capacity is their number. -/
theorem ofRecords_eq (records : List Record) : ofRecords records =
    { ofCapacity records.length with buffer := records.map .ok, producer := .gone } := by
  have room : (ofCapacity records.length).buffer.length + records.length ≤
      (ofCapacity records.length).capacity := by
    simp only [ofCapacity, List.length_nil]
    omega
  rw [ofRecords, trySend_records rfl rfl room]
  rfl

/-! ## The consumer -/

/-- What a consumer does that does not go away. -/
inductive Demand where
  | next
  | pause
  | resume
  | cancel

def serve (f : Flow) : Demand → Flow
  | .next => f.next.2
  | .pause => f.pause
  | .resume => f.resume
  | .cancel => f.cancel

section Grant

variable (f : Flow)

theorem grant_cases : f.grant = f ∨ ∃ seen item, f.producer = .queued seen item false ∧
    f.grant = { f with producer := .queued seen item true } := by
  unfold grant
  split
  case h_1 seen item h =>
    split
    · exact .inl rfl
    · exact .inr ⟨seen, item, h, rfl⟩
  case h_2 => exact .inl rfl

@[simp] theorem grant_capacity : f.grant.capacity = f.capacity := by
  obtain h | ⟨_, _, _, h⟩ := f.grant_cases <;> rw [h]

@[simp] theorem grant_buffer : f.grant.buffer = f.buffer := by
  obtain h | ⟨_, _, _, h⟩ := f.grant_cases <;> rw [h]

@[simp] theorem grant_paused : f.grant.paused = f.paused := by
  obtain h | ⟨_, _, _, h⟩ := f.grant_cases <;> rw [h]

@[simp] theorem grant_cancelled : f.grant.cancelled = f.cancelled := by
  obtain h | ⟨_, _, _, h⟩ := f.grant_cases <;> rw [h]

@[simp] theorem grant_consumer : f.grant.consumer = f.consumer := by
  obtain h | ⟨_, _, _, h⟩ := f.grant_cases <;> rw [h]

theorem kept_grant : f.producer.Kept f.grant.producer := by
  obtain h | ⟨seen, item, queued, h⟩ := f.grant_cases
  · rw [h]
    exact .same
  · rw [h]
    exact .granted seen item queued

end Grant

theorem not_queued_of_grant {f : Flow} (on : f.cancelled = false) (seen : Nat) (item : Item) :
    f.grant.producer ≠ .queued seen item false := by
  unfold grant
  split
  case h_1 =>
    rw [if_neg (by simp [on])]
    exact nofun
  case h_2 other => exact other seen item

theorem next_flow (f : Flow) : f.next.2 = f ∨ ∃ item rest consumer, f.buffer = item :: rest ∧
    f.next.2 = grant { f with buffer := rest, consumer := consumer } := by
  unfold next
  split
  case h_1 => exact .inl rfl
  case h_2 =>
    split
    case h_1 => exact .inl rfl
    case h_2 fault rest items => exact .inr ⟨.error fault, rest, f.consumer, items, rfl⟩
    case h_3 r rest items => exact .inr ⟨.ok r, rest, _, items, rfl⟩

section Serve

variable (f : Flow) (d : Demand)

theorem kept_serve : f.producer.Kept (f.serve d).producer := by
  cases d with
  | next =>
    obtain h | ⟨_, rest, consumer, _, h⟩ := f.next_flow
    · simp only [serve, h]
      exact .same
    · simp only [serve, h]
      exact kept_grant { f with buffer := rest, consumer := consumer }
  | pause | resume | cancel => exact .same

theorem serve_buffer_le : (f.serve d).buffer.length ≤ f.buffer.length := by
  cases d with
  | next =>
    obtain h | ⟨item, rest, _, items, h⟩ := f.next_flow
    · simp [serve, h]
    · simp [serve, h, items]
  | pause | resume | cancel => exact Nat.le_refl _

theorem serve_cancelled (closed : f.cancelled = true) : (f.serve d).cancelled = true := by
  cases d with
  | next => obtain h | ⟨_, _, _, _, h⟩ := f.next_flow <;> simpa [serve, h] using closed
  | pause | resume => exact closed
  | cancel => rfl

theorem serve_paused (paused : f.paused = true) (stays : d ≠ .resume) :
    (f.serve d).paused = true := by
  cases d with
  | next => obtain h | ⟨_, _, _, _, h⟩ := f.next_flow <;> simpa [serve, h] using paused
  | pause => rfl
  | resume => exact absurd rfl stays
  | cancel => exact paused

end Serve

theorem next_cases (f : Flow) (h : f.consumer = .present []) :
    (f.buffer = [] ∧ f.next = (if f.exhausted then .ended else .pending, f)) ∨
      ∃ item rest, f.buffer = item :: rest ∧
        f.next = (.item item, grant { f with buffer := rest }) := by
  unfold next
  rw [h]
  simp only
  cases items : f.buffer with
  | nil => exact .inl ⟨rfl, rfl⟩
  | cons item rest =>
    refine .inr ⟨item, rest, rfl, ?_⟩
    cases item with
    | error fault => rfl
    | ok r => simp only [runStages, ← h]

end RowStore.Flow
