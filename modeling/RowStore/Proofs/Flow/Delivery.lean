import Mathlib
import RowStore.Proofs.Flow.Ends

/-!
# Delivery

Whatever the order in which its two ends act, a flow delivers the items that were accepted, each
once and in their order, and no others.
-/

namespace RowStore.Flow

/-- What one of the two ends does next. -/
inductive Action where
  | begin (errand : Option Item)
  | step
  | leave
  | demand (d : Demand)

/-- Counts the takings. -/
def Action.takes : Action → Nat
  | .demand .next => 1
  | _ => 0

/-- A flow with what its ends have learnt of it so far. -/
structure History where
  flow : Flow
  /-- The items whose sending is over, in this order, each with the answer to it. -/
  sent : List (Item × Bool)
  /-- What the consumer was given, in this order. -/
  taken : List Item

namespace History

def ofCapacity (capacity : Nat) : History := ⟨.ofCapacity capacity, [], []⟩

/-- The items of which the producer knows that they were accepted. -/
def accepted (h : History) : List Item := (h.sent.filter (·.2)).map (·.1)

/-- What a reply settles, to a call with `errand` in hand. -/
def settled (errand : Option Item) : Reply → List (Item × Bool)
  | .done accepted => errand.toList.map (·, accepted)
  | _ => []

def heard (h : History) (errand : Option Item) (r : Reply × Flow) : History :=
  { h with flow := r.2, sent := h.sent ++ settled errand r.1 }

def given : Taken → List Item
  | .item i => [i]
  | _ => []

def act (h : History) : Action → History
  | .begin errand => h.heard errand (h.flow.begin errand)
  | .step => h.heard h.flow.producer.inHand h.flow.step
  | .leave => { h with flow := h.flow.dropProducer }
  | .demand .next => { h with flow := h.flow.serve .next, taken := h.taken ++ given h.flow.next.1 }
  | .demand d => { h with flow := h.flow.serve d }

def run (h : History) (actions : List Action) : History := actions.foldl act h

/-- A call of the producer that goes on at once is two of its actions. -/
theorem run_settle (h : History) (a : Action) (r : Reply × Flow) (first : (h.act a).flow = r.2) :
    ∃ actions, (h.run actions).flow = (settle r).2 := by
  unfold settle
  split
  · refine ⟨[a, .step], ?_⟩
    change (h.act a).flow.step.2 = r.2.step.2
    rw [first]
  · exact ⟨[a], first⟩

theorem run_start (h : History) (errand : Option Item) :
    ∃ actions, (h.run actions).flow = (h.flow.start errand).2 := by
  unfold start
  split
  · exact run_settle h (.begin errand) _ rfl
  · exact ⟨[.begin errand], rfl⟩

theorem run_poll (h : History) : ∃ actions, (h.run actions).flow = h.flow.poll.2 :=
  run_settle h .step _ rfl

/-! ## What one action does -/

theorem settled_accepted (errand : Option Item) (reply : Reply) :
    ((settled errand reply).filter (·.2)).map (·.1) = gained errand reply := by
  cases reply with
  | done accepted => cases accepted <;> cases errand <;> rfl
  | pending | busy | idle | gone => rfl

theorem heard_accepted (h : History) (errand : Option Item) (r : Reply × Flow) :
    (h.heard errand r).accepted = h.accepted ++ gained errand r.1 := by
  simp [accepted, heard, ← settled_accepted]

theorem heard_declined {h : History} {errand : Option Item} {r : Reply × Flow}
    (declined : Declined h.flow r) : h.heard errand r = h := by
  obtain ⟨same, waits⟩ := declined
  have nothing : settled errand r.1 = [] := by
    unfold settled
    split
    case h_1 accepted done => exact absurd done (waits accepted)
    case h_2 => rfl
  simp [heard, same, nothing]

theorem act_cases (h : History) (a : Action) : (∃ d, a = .demand d) ∨ a.takes = 0 ∧
    ((∃ errand r, Looked h.flow errand r ∧ h.act a = h.heard errand r) ∨ h.act a = h ∨
      h.act a = { h with flow := h.flow.dropProducer }) := by
  cases a with
  | begin errand =>
    obtain looked | declined := h.flow.begin_cases errand
    · exact .inr ⟨rfl, .inl ⟨errand, _, looked, rfl⟩⟩
    · exact .inr ⟨rfl, .inr (.inl (heard_declined declined))⟩
  | step =>
    obtain looked | declined := h.flow.step_cases
    · exact .inr ⟨rfl, .inl ⟨_, _, looked, rfl⟩⟩
    · exact .inr ⟨rfl, .inr (.inl (heard_declined declined))⟩
  | leave => exact .inr ⟨rfl, .inr (.inr rfl)⟩
  | demand d => exact .inl ⟨d, rfl⟩

theorem act_next (h : History) (bare : h.flow.consumer = .present []) :
    (h.flow.buffer = [] ∧ h.act (.demand .next) = h) ∨
      ∃ item rest, h.flow.buffer = item :: rest ∧ h.act (.demand .next) =
        { h with flow := grant { h.flow with buffer := rest }, taken := h.taken ++ [item] } := by
  obtain ⟨empty, same⟩ | ⟨item, rest, items, taking⟩ := h.flow.next_cases bare
  · refine .inl ⟨empty, ?_⟩
    have nothing : given h.flow.next.1 = [] := by
      rw [same]
      cases h.flow.exhausted <;> rfl
    change { h with flow := h.flow.next.2, taken := h.taken ++ given h.flow.next.1 } = h
    rw [nothing, same, List.append_nil]
  · exact .inr ⟨item, rest, items, by simp only [act, serve, taking, given]⟩

/-! ## Nothing is lost and nothing comes twice -/

/-- What every history of a flow with room for `size` items satisfies. -/
structure Sound (size : Nat) (h : History) : Prop where
  size_eq : h.flow.capacity = size
  bare : h.flow.consumer = .present []
  room : h.flow.buffer.length + h.flow.producer.promised ≤ size
  kept : h.accepted = h.taken ++ h.flow.buffer

theorem sound_ofCapacity (capacity : Nat) : Sound (max capacity 1) (ofCapacity capacity) :=
  ⟨rfl, rfl, Nat.zero_le _, rfl⟩

variable {size : Nat} {h : History}

theorem sound_heard {errand : Option Item} {r : Reply × Flow} (sound : Sound size h)
    (looked : Looked h.flow errand r) : Sound size (h.heard errand r) := by
  obtain ⟨rfl, bare, room, kept⟩ := sound
  refine ⟨looked.capacity_eq, looked.consumer_eq.trans bare, looked.room_le room, ?_⟩
  rw [heard_accepted, kept, List.append_assoc, ← looked.buffer_eq]
  rfl

theorem sound_demand (sound : Sound size h) (d : Demand) : Sound size (h.act (.demand d)) := by
  have ⟨size_eq, bare, room, kept⟩ := sound
  cases d with
  | next =>
    obtain ⟨_, same⟩ | ⟨item, rest, items, taking⟩ := h.act_next bare
    · rw [same]
      exact sound
    · rw [taking]
      rw [items, List.length_cons] at room
      refine ⟨by simpa using size_eq, by simpa using bare, ?_, ?_⟩
      · -- The slot that is free now may be promised, and no other is.
        refine Nat.le_trans (Nat.add_le_add_left (Producer.promised_le_one _) _) ?_
        simp only [grant_buffer]
        omega
      · change h.accepted = h.taken ++ [item] ++ (grant { h.flow with buffer := rest }).buffer
        rw [kept, items, grant_buffer, List.append_assoc]
        rfl
  | pause | resume | cancel => exact ⟨size_eq, bare, room, kept⟩

theorem sound_act (sound : Sound size h) (a : Action) : Sound size (h.act a) := by
  obtain ⟨d, rfl⟩ | ⟨-, ⟨_, _, looked, eq⟩ | eq | eq⟩ := h.act_cases a
  · exact sound_demand sound d
  · rw [eq]
    exact sound_heard sound looked
  · rw [eq]
    exact sound
  · rw [eq]
    exact ⟨sound.size_eq, sound.bare, Nat.le_trans (Nat.le_add_right _ _) sound.room, sound.kept⟩

theorem sound_run (sound : Sound size h) (actions : List Action) : Sound size (h.run actions) := by
  induction actions generalizing h with
  | nil => exact sound
  | cons a rest ih => exact ih (sound_act sound a)

/-! ## After the cancellation -/

/-- How many items the consumer asks for. -/
def takings (actions : List Action) : Nat := (actions.map Action.takes).sum

/-- The first `n` items of the buffer of `h` were taken since, and nothing has come into it. -/
structure Emptied (h : History) (n : Nat) (later : History) : Prop where
  closed : later.flow.cancelled = true
  taken : later.taken = h.taken ++ h.flow.buffer.take n
  buffer : later.flow.buffer = h.flow.buffer.drop n

theorem emptied_zero {later : History} (closed : later.flow.cancelled = true)
    (taken : later.taken = h.taken) (buffer : later.flow.buffer = h.flow.buffer) :
    Emptied h 0 later :=
  ⟨closed, by simpa using taken, by simpa using buffer⟩

theorem emptied_act (sound : Sound size h) (closed : h.flow.cancelled = true) (a : Action) :
    Emptied h a.takes (h.act a) := by
  obtain ⟨d, rfl⟩ | ⟨none, ⟨errand, r, looked, eq⟩ | eq | eq⟩ := h.act_cases a
  · cases d with
    | next =>
      obtain ⟨empty, eq⟩ | ⟨item, rest, items, eq⟩ := h.act_next sound.bare
      · rw [eq]
        exact ⟨closed, by simp [empty], by simp [empty]⟩
      · rw [eq]
        exact ⟨by simpa using closed, by simp [items, Action.takes],
          by simp [items, Action.takes]⟩
    | pause | resume => exact emptied_zero closed rfl rfl
    | cancel => exact emptied_zero rfl rfl rfl
  · rw [eq, none]
    refine emptied_zero (looked.cancelled_eq.trans closed) rfl ?_
    calc r.2.buffer
        = h.flow.buffer ++ gained errand r.1 := looked.buffer_eq
      _ = h.flow.buffer := by rw [looked.done_false closed]; exact List.append_nil _
  · rw [eq, none]
    exact emptied_zero closed rfl rfl
  · rw [eq, none]
    exact emptied_zero closed rfl rfl

theorem emptied_run (sound : Sound size h) (closed : h.flow.cancelled = true)
    (actions : List Action) : Emptied h (takings actions) (h.run actions) := by
  induction actions generalizing h with
  | nil => exact ⟨closed, by simp [run, takings], by simp [run, takings]⟩
  | cons a rest ih =>
    have ⟨closed', taken, buffer⟩ := emptied_act sound closed a
    have ⟨closed'', taken', buffer'⟩ := ih (sound_act sound a) closed'
    refine ⟨closed'', ?_, ?_⟩
    · calc ((h.act a).run rest).taken
          = h.taken ++ (h.flow.buffer.take a.takes ++
              (h.flow.buffer.drop a.takes).take (takings rest)) := by
            rw [taken', taken, buffer, List.append_assoc]
        _ = h.taken ++ h.flow.buffer.take (takings (a :: rest)) := by
            rw [← List.take_add]; rfl
    · calc ((h.act a).run rest).flow.buffer
          = (h.flow.buffer.drop a.takes).drop (takings rest) := by rw [buffer', buffer]
        _ = h.flow.buffer.drop (takings (a :: rest)) := by rw [List.drop_drop]; rfl

theorem ended {h : History} (sound : Sound size h) (last : h.flow.next.1 = .ended) :
    h.flow.buffer = [] ∧ (h.flow.producer = .gone ∨ h.flow.cancelled = true) := by
  obtain ⟨empty, same⟩ | ⟨item, rest, -, taking⟩ := h.flow.next_cases sound.bare
  · refine ⟨empty, ?_⟩
    have spent : h.flow.exhausted = true := by
      rw [same] at last
      split at last
      case isTrue spent => exact spent
      case isFalse => contradiction
    unfold exhausted at spent
    split at spent
    case h_1 gone => exact .inl gone
    case h_2 => contradiction
    case h_3 => exact .inr spent
  · rw [taking] at last
    contradiction

/-- Two ends act on a new flow in any order. What was accepted is at any time what was taken and
what the buffer holds, in one row, and the buffer holds no more than the capacity. An item that was
never accepted is in neither. Once the flow is cancelled nothing more is accepted, and the consumer
takes from the buffer what it asks for. It hears of the end when it has everything. -/
theorem run_delivers (capacity : Nat) (actions : List Action) :
    let h := (ofCapacity capacity).run actions
    h.accepted = h.taken ++ h.flow.buffer ∧
      h.flow.buffer.length ≤ max capacity 1 ∧
      (∀ item, (item, true) ∉ h.sent → item ∉ h.taken ∧ item ∉ h.flow.buffer) ∧
      (∀ more, let later := (h.act (.demand .cancel)).run more
        later.accepted = h.accepted ∧
          later.taken = h.taken ++ h.flow.buffer.take (takings more)) ∧
      (h.flow.next.1 = .ended → h.flow.buffer = [] ∧ h.accepted = h.taken ∧
        (h.flow.producer = .gone ∨ h.flow.cancelled = true)) := by
  intro h
  have sound : Sound (max capacity 1) h := sound_run (sound_ofCapacity capacity) actions
  refine ⟨sound.kept, ?_, ?_, ?_, ?_⟩
  · have := sound.room
    omega
  · intro item refused
    have absent : item ∉ h.accepted := by
      intro mem
      simp only [accepted, List.mem_map, List.mem_filter] at mem
      obtain ⟨⟨_, _⟩, ⟨mem, rfl⟩, rfl⟩ := mem
      exact refused mem
    rw [sound.kept, List.mem_append, not_or] at absent
    exact absent
  · intro more later
    have cancelled : Sound (max capacity 1) (h.act (.demand .cancel)) := sound_act sound _
    have emptied := emptied_run cancelled rfl more
    refine ⟨?_, emptied.taken⟩
    -- What is taken later was in the buffer before, so the row stays the same.
    rw [(sound_run cancelled more).kept, emptied.taken, emptied.buffer, List.append_assoc,
      List.take_append_drop]
    exact sound.kept.symm
  · intro last
    have ⟨empty, reason⟩ := ended sound last
    refine ⟨empty, ?_, reason⟩
    rw [sound.kept, empty, List.append_nil]

/-- Of two items for one slot the second waits, and is given up when the flow is cancelled. -/
theorem run_delivers_first :
    let first : Item := .error (.execution "1")
    let second : Item := .error (.execution "2")
    let h := (ofCapacity 0).run [.begin (some first), .step, .begin (some second), .step,
      .demand .cancel, .step, .demand .next]
    h.sent = [(first, true), (second, false)] ∧ h.taken = [first] ∧ second ∉ h.taken ∧
      h.flow.next.1 = .ended ∧ h.accepted = h.taken := by
  intro first second h
  obtain ⟨-, -, refused, -, last⟩ := run_delivers 0 [.begin (some first), .step,
    .begin (some second), .step, .demand .cancel, .step, .demand .next]
  have sent : h.sent = [(first, true), (second, false)] := by cbv
  have taken : h.taken = [first] := by cbv
  have atEnd : h.flow.next.1 = .ended := by cbv
  have unsent : (second, true) ∉ h.sent := by
    rw [sent]
    simp [first, second]
  exact ⟨sent, taken, (refused second unsent).1, atEnd, (last atEnd).2.1⟩

end History

end RowStore.Flow
