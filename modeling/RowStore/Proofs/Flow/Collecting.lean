import Mathlib
import RowStore.Flow.Stream
import RowStore.Proofs.Flow.Upcoming

/-!
# Collecting a stream

A consumer that neither pauses nor cancels gets what the source of the pump has, in its order and up
to the first failure. Neither the capacity of the flow nor the order in which the pump and the
consumer act has a part in it.
-/

namespace RowStore.Stream

open Pump (upcoming outstanding exhausted_iff upToFailure)

variable {α : Type}

theorem take_cases {s : Stream α} (free : s.pump.Free) :
    (s.pump.upcoming = [] ∧ s.take = (some none, s)) ∨
    (∃ item next, s.pump.upcoming = item :: next.pump.upcoming ∧ next.pump.Free ∧
      next.finish = s.finish ∧ s.take = (some (some (item >>= s.finish)), next)) ∨
    (s.pump.flow.buffer = [] ∧ s.pump.phase ≠ .gone ∧ s.take = (none, s)) := by
  obtain ⟨empty, same⟩ | ⟨item, rest, items, taking⟩ := s.pump.flow.next_cases free.bare
  · have ends : s.pump.flow.exhausted = true ↔ s.pump.phase = .gone := exhausted_iff free
    by_cases gone : s.pump.phase = .gone
    · left
      refine ⟨by simp [upcoming, outstanding, empty, gone], ?_⟩
      simp [take, same, ends.mpr gone, onFlow]
    · right
      right
      have goesOn : s.pump.flow.exhausted = false := by simpa [gone] using ends
      refine ⟨empty, gone, ?_⟩
      simp [take, same, goesOn, onFlow]
  · right
    left
    refine ⟨item, s.onFlow fun _ => Flow.grant { s.pump.flow with buffer := rest }, ?_,
      Pump.free_grant free rest, rfl, ?_⟩
    · simp [upcoming, items, onFlow, outstanding]
    · simp [take, taking]

theorem next_cases {s : Stream α} (free : s.pump.Free) :
    (s.pump.upcoming = [] ∧ s.next.1 = some none) ∨
    (∃ item next, s.pump.upcoming = item :: next.pump.upcoming ∧ next.pump.Free ∧
      next.finish = s.finish ∧ s.next = (some (some (item >>= s.finish)), next)) := by
  obtain ⟨nothing, taken⟩ | ⟨item, next, first, free', same, taken⟩ | ⟨empty, here, taken⟩ :=
    take_cases free
  · exact .inl ⟨nothing, by simp [Stream.next, taken]⟩
  · exact .inr ⟨item, next, first, free', same, by simp [Stream.next, taken]⟩
  · have turned : s.next = ({ s with pump := s.pump.turn } : Stream α).take := by
      simp [Stream.next, taken]
    have kept := Pump.upcoming_turn free
    obtain ⟨nothing, taken'⟩ | ⟨item, next, first, free', same, taken'⟩ | ⟨empty', here', -⟩ :=
      take_cases (s := { s with pump := s.pump.turn }) (Pump.free_turn free)
    · exact .inl ⟨kept ▸ nothing, by rw [turned, taken']⟩
    · exact .inr ⟨item, next, kept ▸ first, free', same, turned.trans taken'⟩
    · obtain full | gone := Pump.ready_turn free
      · exact absurd empty' full
      · exact absurd gone here'

/-! ## Collecting -/

/-- What a consumer makes of some items: all of their values, or the first failure. -/
def gather (finish : Record → Except Fault α) (items : List Item) : Except Fault (List α) :=
  items.mapM fun item => item >>= finish

theorem gather_cons (finish : Record → Except Fault α) (item : Item) (rest : List Item) :
    gather finish (item :: rest) =
      (item >>= finish) >>= fun value => (value :: ·) <$> gather finish rest := by
  rw [gather, List.mapM_cons]
  cases item >>= finish <;> rfl

theorem gather_upToFailure (finish : Record → Except Fault α) (items : List Item) :
    gather finish (upToFailure items) = gather finish items := by
  induction items with
  | nil => rfl
  | cons item rest ih =>
    cases item with
    | ok r => rw [upToFailure, gather_cons, gather_cons, ih]
    | error fault => rfl

theorem collectFrom_eq (fuel : Nat) {s : Stream α} (free : s.pump.Free)
    (h : s.pump.upcoming.length < fuel) :
    collectFrom fuel s = some (gather s.finish s.pump.upcoming) := by
  induction fuel generalizing s with
  | zero => contradiction
  | succ fuel ih =>
    obtain ⟨nothing, ended⟩ | ⟨item, next, first, free', same, taken⟩ := next_cases free
    · rw [collectFrom, nothing]
      split
      case h_3 => rfl
      all_goals simp_all
    · rw [first, List.length_cons] at h
      have rest := ih free' (by omega)
      rw [same] at rest
      rw [collectFrom, taken, first, gather_cons]
      cases item >>= s.finish with
      | ok value =>
        simp only [rest, Option.map_some]
        rfl
      | error fault => rfl

theorem upcoming_length_le (s : Stream α) : s.pump.upcoming.length ≤ s.remaining := by
  have outstanding_le : s.pump.outstanding.length ≤ s.pump.source.length + 1 := by
    unfold outstanding
    split
    case h_1 => exact Nat.zero_le _
    case h_2 item _ => exact Pump.length_upToFailure_le (item :: s.pump.source)
    all_goals exact Nat.le_succ_of_le (Pump.length_upToFailure_le s.pump.source)
  rw [upcoming, List.length_append, remaining]
  omega

theorem collect_eq {s : Stream α} (free : s.pump.Free) :
    s.collect = some (gather s.finish s.pump.upcoming) :=
  collectFrom_eq _ free (Nat.lt_succ_of_le s.upcoming_length_le)

/-! ## In any order -/

/-- Who acts next: the pump makes a step, or the consumer looks for an item. -/
inductive Side where
  | pump
  | consumer

/-- A consumer that collects a stream, with what it has so far. -/
structure Gathering (α : Type) where
  stream : Stream α
  values : List α
  /-- All values or the first failure, once it is known. -/
  result : Option (Except Fault (List α))

namespace Gathering

def ofStream (s : Stream α) : Gathering α := ⟨s, [], none⟩

def look (g : Gathering α) : Gathering α :=
  match g.stream.take with
  | (none, s) => { g with stream := s }
  | (some none, s) => { g with stream := s, result := some (.ok g.values) }
  | (some (some (.ok value)), s) => { g with stream := s, values := g.values ++ [value] }
  | (some (some (.error fault)), s) => { g with stream := s, result := some (.error fault) }

def act (g : Gathering α) : Side → Gathering α
  | .pump => { g with stream := { g.stream with pump := g.stream.pump.step } }
  | .consumer => if g.result.isSome then g else g.look

def run (g : Gathering α) (sides : List Side) : Gathering α := sides.foldl act g

/-- Either the result is known, or what is there and what is to come make it up. -/
structure Expects (g : Gathering α) (all : Except Fault (List α)) : Prop where
  free : g.stream.pump.Free
  known (r : Except Fault (List α)) (h : g.result = some r) : r = all
  missing (h : g.result = none) :
    (g.values ++ ·) <$> gather g.stream.finish g.stream.pump.upcoming = all

variable {g : Gathering α} {all : Except Fault (List α)}

theorem expects_ofStream {s : Stream α} (free : s.pump.Free) :
    Expects (ofStream s) (gather s.finish s.pump.upcoming) where
  free := free
  known _ h := by cases h
  missing _ := by
    simp only [ofStream, List.nil_append]
    exact id_map _

theorem expects_look (h : Expects g all) (unknown : g.result = none) : Expects g.look all := by
  have ⟨free, _, missing⟩ := h
  have missing := missing unknown
  obtain ⟨nothing, taken⟩ | ⟨item, next, first, free', same, taken⟩ | ⟨-, -, taken⟩ :=
    take_cases free
  · -- The end: the values so far are all.
    rw [nothing] at missing
    simp only [look, taken]
    refine ⟨free, fun r known => ?_, fun h => by cases h⟩
    obtain rfl := Option.some.inj known
    rw [← missing]
    exact congrArg Except.ok (List.append_nil g.values).symm
  · -- The next item is one more value, or the failure that is the result.
    rw [first, gather_cons] at missing
    simp only [look, taken]
    cases made : item >>= g.stream.finish with
    | ok value =>
      rw [made] at missing
      refine ⟨free', fun r known => ?_, fun _ => ?_⟩
      · rw [unknown] at known
        contradiction
      · rw [← missing, same]
        change _ = (g.values ++ ·) <$> (value :: ·) <$> gather g.stream.finish next.pump.upcoming
        cases gather g.stream.finish next.pump.upcoming with
        | ok rest => exact congrArg Except.ok (List.append_assoc g.values [value] rest)
        | error fault => rfl
    | error fault =>
      rw [made] at missing
      refine ⟨free', fun r known => ?_, fun h => by cases h⟩
      obtain rfl := Option.some.inj known
      exact missing
  · simp only [look, taken]
    exact h

theorem expects_act (h : Expects g all) (side : Side) : Expects (g.act side) all := by
  cases side with
  | pump =>
    have ⟨free, known, missing⟩ := h
    refine ⟨Pump.free_step free, known, fun unknown => ?_⟩
    rw [← missing unknown]
    simp only [act, Pump.upcoming_step free]
  | consumer =>
    unfold act
    cases unknown : g.result with
    | none => exact expects_look h unknown
    | some r => exact h

theorem expects_run (h : Expects g all) (sides : List Side) : Expects (g.run sides) all := by
  induction sides generalizing g with
  | nil => exact h
  | cons side rest ih => exact ih (expects_act h side)

end Gathering

end RowStore.Stream
