import Mathlib
import RowStore.Proofs.Flow.Ends
import RowStore.Proofs.Flow.Mapper

/-!
# Collecting what is sent

A producer sends the items of a source one by one and leaves. A consumer takes what there is, makes
of it what a chain of transformations makes, and gives the flow up at the end or at the first
failure. The two act in any order, step by step, and the result is that of a sequential run.
-/

namespace RowStore

/-- A flow with such a producer and such a consumer. -/
structure Gatherer {α : Type} (m : Mapper α) where
  flow : Flow
  /-- What the producer has still to send. -/
  unsent : List Item
  memory : m.Memory
  values : List α
  /-- All values or the first failure, once it is known. -/
  result : Option (Except Fault (List α))

namespace Gatherer

open RowStore.Flow (grant pass)
open Mapper (Collected)

variable {α : Type} {m : Mapper α}

def ofFlow (m : Mapper α) (flow : Flow) (items : List Item) : Gatherer m :=
  ⟨flow, items, m.fresh, [], none⟩

/-- A step of the producer. A call is begun when the one before it is over. -/
def send (g : Gatherer m) : Gatherer m :=
  match g.flow.producer, g.unsent with
  | .idle _, [] => { g with flow := g.flow.dropProducer }
  | .idle _, item :: rest => { g with flow := (g.flow.begin (some item)).2, unsent := rest }
  | _, _ => { g with flow := g.flow.step.2 }

def finish (g : Gatherer m) (result : Except Fault (List α)) : Gatherer m :=
  { g with flow := g.flow.dropConsumer, result := some result }

/-- A look of the consumer. -/
def take (g : Gatherer m) : Gatherer m :=
  match g.flow.next with
  | (.item item, flow) =>
    match m.receive g.memory item with
    | (.ok x, memory) => { g with flow := flow, memory := memory, values := g.values ++ [x] }
    | (.error fault, memory) => { g with flow := flow, memory := memory }.finish (.error fault)
  | (.ended, flow) => { g with flow := flow }.finish (.ok g.values)
  | (.pending, flow) | (.gone, flow) => { g with flow := flow }

inductive Side where
  | producer
  | consumer

def act (g : Gatherer m) : Side → Gatherer m
  | .producer => g.send
  | .consumer => g.take

/-- After so many steps, with the two sides in this order. -/
def after (g : Gatherer m) (turns : Nat → Side) : Nat → Gatherer m
  | 0 => g
  | n + 1 => (g.after turns n).act (turns n)

/-- No side is left waiting for its turn for ever. -/
def Fair (turns : Nat → Side) : Prop := ∀ (side : Side) (n : Nat), ∃ k, n ≤ k ∧ turns k = side

/-- In whatever order the two sides act, no other result is ever known, and no other calls are made
for it. With a fair order the result becomes known. -/
def Gathers (g : Gatherer m) (result : Except Fault (List α)) (memory : m.Memory) : Prop :=
  ∀ turns, (∀ n, (g.after turns n).result = none ∨
    ((g.after turns n).result = some result ∧ (g.after turns n).memory = memory)) ∧
  (Fair turns → ∃ n, (g.after turns n).result = some result)

/-! ## While the result is not known -/

/-- Nobody pauses or cancels the flow, and the producer leaves it when it has sent everything. -/
structure Steady (g : Gatherer m) (stages : List (Stage × List Record)) : Prop where
  unknown : g.result = none
  on : g.flow.cancelled = false
  goes : g.flow.paused = false
  room : 0 < g.flow.capacity
  present : g.flow.consumer = .present stages
  left : g.flow.producer = .gone → g.unsent = []
  stands (seen : Nat) (errand : Option Item) : g.flow.producer ≠ .waiting seen errand
  full (seen : Nat) (item : Item) : g.flow.producer = .queued seen item false → g.flow.buffer ≠ []

/-- What the consumer has still to get. -/
def upcoming (g : Gatherer m) : List Item :=
  g.flow.buffer ++ g.flow.producer.inHand.toList ++ g.unsent

/-- What the producer can do in a step. -/
inductive Sent (g : Gatherer m) : Gatherer m → Prop where
  | closed (seen : Nat) (idle : g.flow.producer = .idle seen) (last : g.unsent = []) :
      Sent g { g with flow := { g.flow with producer := .gone } }
  | begun (seen : Nat) (item : Item) (rest : List Item) (idle : g.flow.producer = .idle seen)
      (next : g.unsent = item :: rest) :
      Sent g { g with
        flow := { g.flow with producer := .offering g.flow.version item }, unsent := rest }
  | accepted (seen : Nat) (item : Item) (carried : g.flow.producer = .offering seen item ∨
        g.flow.producer = .queued seen item true) :
      Sent g { g with
        flow := { g.flow with buffer := g.flow.buffer ++ [item], producer := .idle seen } }
  | queued (seen : Nat) (item : Item) (carried : g.flow.producer = .offering seen item)
      (full : g.flow.buffer ≠ []) :
      Sent g { g with flow := { g.flow with producer := .queued seen item false } }
  | waiting (h : g.flow.producer = .gone ∨
      ∃ seen item, g.flow.producer = .queued seen item false) : Sent g g

/-- What the consumer can do in a look. -/
inductive Took (g : Gatherer m) (stages : List (Stage × List Record)) : Gatherer m → Prop where
  | value (item : Item) (rest : List Item) (x : α) (memory : m.Memory)
      (first : g.flow.buffer = item :: rest)
      (made : m.receive g.memory (pass stages item).1 = (.ok x, memory)) :
      Took g stages { g with
        flow := grant { g.flow with buffer := rest, consumer := .present (pass stages item).2 }
        memory := memory, values := g.values ++ [x] }
  | failure (item : Item) (rest : List Item) (fault : Fault) (memory : m.Memory) (flow : Flow)
      (first : g.flow.buffer = item :: rest)
      (made : m.receive g.memory (pass stages item).1 = (.error fault, memory)) :
      Took g stages ({ g with flow := flow, memory := memory }.finish (.error fault))
  | ended (empty : g.flow.buffer = []) (gone : g.flow.producer = .gone) :
      Took g stages (g.finish (.ok g.values))
  | waiting (empty : g.flow.buffer = []) (here : g.flow.producer ≠ .gone) : Took g stages g

variable {g : Gatherer m} {stages : List (Stage × List Record)}

theorem sent_send (steady : Steady g stages) : Sent g g.send := by
  have ⟨_, on, goes, room, _, _, stands, full⟩ := steady
  unfold send
  cases producer : g.flow.producer with
  | idle seen =>
    cases unsent : g.unsent with
    | nil =>
      simp only
      rw [← unsent]
      exact .closed seen producer unsent
    | cons item rest =>
      simp only [Flow.begin, producer, Flow.look]
      rw [if_neg (by simp [on]), if_neg (by simp [goes])]
      exact .begun seen item rest producer unsent
  | waiting seen errand => exact absurd producer (stands seen errand)
  | offering seen item =>
    simp only [Flow.step, producer, Flow.offer]
    rw [if_neg (by simp [on])]
    split
    case isTrue => exact .accepted seen item (.inl producer)
    case isFalse taken =>
      refine .queued seen item producer ?_
      -- Nobody else was promised a slot, so it is the buffer that is full.
      intro empty
      rw [Flow.free_eq, producer, empty] at taken
      simp only [List.length_nil, Flow.Producer.promised] at taken
      omega
  | queued seen item granted =>
    simp only [Flow.step, producer]
    rw [if_neg (by simp [on])]
    cases granted with
    | true => exact .accepted seen item (.inr producer)
    | false => exact .waiting (.inr ⟨seen, item, producer⟩)
  | gone =>
    simp only [Flow.step, producer]
    exact .waiting (.inl producer)

theorem took_take (steady : Steady g stages) : Took g stages g.take := by
  have ⟨_, on, _, _, present, _, _, _⟩ := steady
  unfold take
  cases items : g.flow.buffer with
  | nil =>
    simp only [Flow.next, present, items]
    by_cases gone : g.flow.producer = .gone
    · have ends : g.flow.exhausted = true := by simp [Flow.exhausted, gone]
      rw [ends]
      exact .ended items gone
    · have goesOn : g.flow.exhausted = false := by
        unfold Flow.exhausted
        split
        case h_1 => contradiction
        case h_2 => rfl
        case h_3 => exact on
      rw [goesOn]
      exact .waiting items gone
  | cons item rest =>
    rw [Flow.next_of_buffer present items]
    simp only
    split
    case h_1 x memory made => exact .value item rest x memory items made
    case h_2 fault memory made => exact .failure item rest fault memory _ items made

/-! ## Steps of the producer -/

/-- The steps that the producer needs for what it has to send, if it never has to wait. Each item
takes one more, for the consumer to take it. -/
def ahead (unsent : Nat) : Flow.Producer → Nat
  | .gone => 0
  | .idle _ | .waiting _ _ => 4 * unsent + 1
  | .queued _ _ _ => 4 * unsent + 3
  | .offering _ _ => 4 * unsent + 4

theorem ahead_of_kept {n : Nat} {p q : Flow.Producer} (kept : p.Kept q) :
    ahead n q = ahead n p := by
  cases kept with
  | same => rfl
  | granted seen item queued => rw [queued]; rfl

/-- The steps that may pass before the result is known. -/
def work (g : Gatherer m) : Nat :=
  match g.result with
  | some _ => 0
  | none => ahead g.unsent.length g.flow.producer + g.flow.buffer.length + 1

namespace Sent

variable {q : Gatherer m}

theorem steady (sent : Sent g q) (before : Steady g stages) : Steady q stages := by
  have ⟨unknown, on, goes, room, present, left, stands, full⟩ := before
  cases sent with
  | closed seen idle last =>
    exact ⟨unknown, on, goes, room, present, fun _ => last, nofun, nofun⟩
  | begun | accepted => exact ⟨unknown, on, goes, room, present, nofun, nofun, nofun⟩
  | queued seen item carried taken =>
    exact ⟨unknown, on, goes, room, present, nofun, nofun, fun _ _ _ => taken⟩
  | waiting => exact before

theorem upcoming_eq (sent : Sent g q) : q.upcoming = g.upcoming := by
  cases sent with
  | closed seen idle last => simp [upcoming, Flow.Producer.inHand, idle]
  | begun seen item rest idle next => simp [upcoming, Flow.Producer.inHand, idle, next]
  | accepted seen item carried =>
    obtain carried | carried := carried <;> simp [upcoming, Flow.Producer.inHand, carried]
  | queued seen item carried => simp [upcoming, Flow.Producer.inHand, carried]
  | waiting => rfl

theorem work_lt (sent : Sent g q) (unknown : g.result = none) : q.work < g.work ∨
    (q = g ∧
      (g.flow.producer = .gone ∨ ∃ seen item, g.flow.producer = .queued seen item false)) := by
  cases sent with
  | closed seen idle last =>
    left
    simp only [work, unknown, idle, ahead]
    omega
  | begun seen item rest idle next =>
    left
    simp only [work, unknown, idle, next, ahead, List.length_cons]
    omega
  | accepted seen item carried =>
    left
    obtain carried | carried := carried
    all_goals
      simp only [work, unknown, carried, ahead, List.length_append, List.length_singleton]
      omega
  | queued seen item carried =>
    left
    simp only [work, unknown, carried, ahead]
    omega
  | waiting h => exact .inr ⟨rfl, h⟩

end Sent

/-! ## Looks of the consumer -/

/-- Either the result is known, or what is there and what is to come make it up. -/
inductive Expects (g : Gatherer m) (result : Except Fault (List α)) (memory : m.Memory) : Prop where
  | known (found : g.result = some result) (same : g.memory = memory)
      (parted : g.flow.consumer = .gone)
  | missing (stages : List (Stage × List Record)) (steady : Steady g stages)
      (rest : ((g.values ++ ·) <$> (m.collectThrough stages g.memory g.upcoming).1,
        (m.collectThrough stages g.memory g.upcoming).2) = (result, memory))

section

variable {result : Except Fault (List α)} {memory : m.Memory} {q : Gatherer m}

theorem steady_grant (before : Steady g stages) (rest : List Item)
    (kept : List (Stage × List Record)) (memory : m.Memory) (values : List α) :
    Steady { g with
      flow := grant { g.flow with buffer := rest, consumer := .present kept }
      memory := memory, values := values } kept := by
  have ⟨unknown, on, goes, room, _, left, stands, _⟩ := before
  have moved := Flow.kept_grant { g.flow with buffer := rest, consumer := .present kept }
  refine ⟨unknown, by simpa using on, by simpa using goes, by simpa using room, by simp, ?_, ?_, ?_⟩
  · intro gone
    by_contra more
    exact moved.here (fun here => more (left here)) gone
  · exact fun seen errand => moved.not_waiting (stands seen errand)
  · exact fun seen item waits =>
      absurd waits (Flow.not_queued_of_grant (by exact on) seen item)

theorem upcoming_of_buffer {item : Item} {rest : List Item} (first : g.flow.buffer = item :: rest) :
    g.upcoming = item :: (rest ++ g.flow.producer.inHand.toList ++ g.unsent) := by
  simp [upcoming, first]

theorem Took.expects (took : Took g stages q) (steady : Steady g stages)
    (rest : ((g.values ++ ·) <$> (m.collectThrough stages g.memory g.upcoming).1,
      (m.collectThrough stages g.memory g.upcoming).2) = (result, memory)) :
    Expects q result memory := by
  cases took with
  | value item rest' x memory' first made =>
    refine .missing _ (steady_grant steady rest' _ memory' _) ?_
    have moved := Flow.kept_grant
      { g.flow with buffer := rest', consumer := .present (pass stages item).2 }
    rw [← rest, upcoming_of_buffer first, Mapper.collectThrough, made]
    simp only [upcoming, Flow.grant_buffer, moved.inHand_eq, Functor.map_map, List.append_assoc]
    rfl
  | failure item rest' fault memory' flow first made =>
    rw [upcoming_of_buffer first, Mapper.collectThrough, made] at rest
    cases rest
    exact .known rfl rfl rfl
  | ended empty gone =>
    have nothing : g.upcoming = [] := by
      simp [upcoming, empty, gone, steady.left gone, Flow.Producer.inHand]
    rw [nothing] at rest
    cases rest
    refine .known ?_ rfl rfl
    exact congrArg (fun values => some (Except.ok values)) (List.append_nil g.values).symm
  | waiting => exact .missing stages steady rest

theorem Took.work_lt (took : Took g stages q) (unknown : g.result = none) : q.work < g.work ∨
    (q = g ∧ g.flow.buffer = [] ∧ g.flow.producer ≠ .gone) := by
  cases took with
  | value item rest x memory first =>
    left
    have moved := Flow.kept_grant
      { g.flow with buffer := rest, consumer := .present (pass stages item).2 }
    simp only [work, unknown, first, ahead_of_kept moved, Flow.grant_buffer, List.length_cons]
    omega
  | failure | ended =>
    left
    rw [work, work, unknown]
    exact Nat.succ_pos _
  | waiting empty here => exact .inr ⟨rfl, empty, here⟩

end

/-! ## In any order -/

section

variable {result : Except Fault (List α)} {memory : m.Memory}

theorem kept_send (g : Gatherer m) :
    g.send.result = g.result ∧ g.send.memory = g.memory ∧ g.send.values = g.values := by
  unfold send
  split <;> exact ⟨rfl, rfl, rfl⟩

theorem consumer_send (g : Gatherer m) : g.send.flow.consumer = g.flow.consumer := by
  unfold send
  split
  case h_1 => rfl
  case h_2 =>
    obtain looked | declined := Flow.begin_cases g.flow (some _)
    · exact looked.consumer_eq
    · exact congrArg Flow.consumer declined.1
  case h_3 =>
    obtain looked | declined := Flow.step_cases g.flow
    · exact looked.consumer_eq
    · exact congrArg Flow.consumer declined.1

theorem expects_act (h : Expects g result memory) (side : Side) :
    Expects (g.act side) result memory := by
  cases side with
  | producer =>
    obtain ⟨sameResult, sameMemory, sameValues⟩ := g.kept_send
    rw [act]
    cases h with
    | known found same parted =>
      exact .known (sameResult.trans found) (sameMemory.trans same) (g.consumer_send.trans parted)
    | missing stages steady rest =>
      have sent := sent_send steady
      refine .missing stages (sent.steady steady) ?_
      rw [sent.upcoming_eq, sameValues, sameMemory]
      exact rest
  | consumer =>
    rw [act]
    cases h with
    | known found same parted =>
      have nothing : g.take = g := by simp [take, Flow.next, parted]
      rw [nothing]
      exact .known found same parted
    | missing stages steady rest => exact (took_take steady).expects steady rest

theorem expects_after (h : Expects g result memory) (turns : Nat → Side) (n : Nat) :
    Expects (g.after turns n) result memory := by
  induction n with
  | zero => exact h
  | succ n ih => exact expects_act ih (turns n)

theorem eq_or_work_lt (steady : Steady g stages) (side : Side) :
    g.act side = g ∨ (g.act side).work < g.work := by
  cases side with
  | producer => exact ((sent_send steady).work_lt steady.unknown).symm.imp_left And.left
  | consumer => exact ((took_take steady).work_lt steady.unknown).symm.imp_left And.left

theorem exists_work_lt (steady : Steady g stages) : ∃ side, (g.act side).work < g.work := by
  obtain less | ⟨-, gone | ⟨seen, item, queued⟩⟩ := (sent_send steady).work_lt steady.unknown
  · exact ⟨.producer, less⟩
  · obtain less | ⟨-, -, here⟩ := (took_take steady).work_lt steady.unknown
    · exact ⟨.consumer, less⟩
    · exact absurd gone here
  · obtain less | ⟨-, empty, -⟩ := (took_take steady).work_lt steady.unknown
    · exact ⟨.consumer, less⟩
    · exact absurd empty (steady.full seen item queued)

theorem after_eq_or_work_lt {turns : Nat → Side} {n : Nat}
    (steady : Steady (g.after turns n) stages) {k : Nat} (later : n ≤ k) :
    g.after turns k = g.after turns n ∨ ∃ j, (g.after turns j).work < (g.after turns n).work := by
  induction k, later using Nat.le_induction with
  | base => exact .inl rfl
  | succ k later ih =>
    obtain same | less := ih
    · obtain still | less := eq_or_work_lt steady (turns k)
      · exact .inl (by rw [after, same, still])
      · exact .inr ⟨k + 1, by rwa [after, same]⟩
    · exact .inr less

/-- In a fair order the side that has something to do gets its turn, and the work comes to its
end. -/
theorem exists_result (h : Expects g result memory) {turns : Nat → Side} (fair : Fair turns) :
    ∃ n, (g.after turns n).result = some result := by
  -- the induction is on the work that is left after some steps, whichever they were
  suffices ∀ w n, (g.after turns n).work = w → ∃ k, (g.after turns k).result = some result from
    this _ 0 rfl
  intro w
  induction w using Nat.strong_induction_on with
  | _ w ih =>
    intro n hw
    obtain ⟨found, -, -⟩ | ⟨_, steady, -⟩ := expects_after h turns n
    · exact ⟨n, found⟩
    · obtain ⟨side, less⟩ := exists_work_lt steady
      obtain ⟨k, later, rfl⟩ := fair side n
      obtain same | ⟨j, less⟩ := after_eq_or_work_lt steady later
      · rw [← same] at less
        exact ih _ (by rw [← hw, ← same]; exact less) (k + 1) rfl
      · exact ih _ (hw ▸ less) j rfl

theorem gathers_of_expects (h : Expects g result memory) : Gathers g result memory := by
  refine fun turns => ⟨fun n => ?_, exists_result h⟩
  obtain ⟨found, same, -⟩ | ⟨_, steady, -⟩ := expects_after h turns n
  · exact .inr ⟨found, same⟩
  · exact .inl steady.unknown

end

/-! ## From the start -/

theorem expects_ofFlow (m : Mapper α) (flow : Flow) (items : List Item)
    (stages : List (Stage × List Record)) (on : flow.cancelled = false) (goes : flow.paused = false)
    (room : 0 < flow.capacity) (present : flow.consumer = .present stages)
    (ready : (∃ seen, flow.producer = .idle seen) ∨ (flow.producer = .gone ∧ items = [])) :
    Expects (ofFlow m flow items) (m.collectThrough stages m.fresh (flow.buffer ++ items)).1
      (m.collectThrough stages m.fresh (flow.buffer ++ items)).2 := by
  have bare : (ofFlow m flow items).upcoming = flow.buffer ++ items := by
    obtain ⟨seen, idle⟩ | ⟨gone, -⟩ := ready
    · simp [upcoming, ofFlow, idle, Flow.Producer.inHand]
    · simp [upcoming, ofFlow, gone, Flow.Producer.inHand]
  refine .missing stages ⟨rfl, on, goes, room, present, ?_, ?_, ?_⟩ ?_
  · intro gone
    obtain ⟨seen, idle⟩ | ⟨-, nothing⟩ := ready
    · cases idle.symm.trans gone
    · exact nothing
  · intro seen errand waits
    obtain ⟨_, idle⟩ | ⟨gone, -⟩ := ready
    · cases idle.symm.trans waits
    · cases gone.symm.trans waits
  · intro seen item waits
    obtain ⟨_, idle⟩ | ⟨gone, -⟩ := ready
    · cases idle.symm.trans waits
    · cases gone.symm.trans waits
  · rw [bare]
    exact congrArg (·, _) (id_map _)

theorem exists_gathers (m : Mapper α) (flow : Flow) (items : List Item)
    (on : flow.cancelled = false) (goes : flow.paused = false) (room : 0 < flow.capacity)
    (present : flow.consumer = .present [])
    (ready : (∃ seen, flow.producer = .idle seen) ∨ (flow.producer = .gone ∧ items = [])) :
    ∃ result memory, (∀ result' memory', Collected m (flow.buffer ++ items) result' memory' ↔
      result' = result ∧ memory' = memory) ∧ Gathers (ofFlow m flow items) result memory := by
  have expects := expects_ofFlow m flow items [] on goes room present ready
  rw [Mapper.collectThrough_nil] at expects
  refine ⟨_, _, fun result' memory' => ?_, gathers_of_expects expects⟩
  rw [Mapper.collected_iff, Prod.ext_iff]
  exact and_congr eq_comm eq_comm

theorem exists_gathers_stages (stages : List Stage) (capacity : Nat) (items : List Item) :
    ∃ result memory, Collected (.ofStages stages) items result memory ∧
      Gathers (ofFlow .plain (stages.foldl Flow.map (.ofCapacity capacity)) items) result () := by
  have expects := expects_ofFlow .plain (stages.foldl Flow.map (.ofCapacity capacity)) items
    (stages.map fun stage => (stage, []))
  rw [Flow.foldl_map _ rfl] at expects ⊢
  refine ⟨_, _, Mapper.collected_iff.mpr rfl, gathers_of_expects ?_⟩
  rw [← (Mapper.keeps_fresh stages).collect]
  exact expects rfl rfl (Nat.le_max_right _ _) rfl (.inl ⟨0, rfl⟩)

/-- Collecting is a sequential run over the items, whatever the capacity of the flow and the order
in which the producer and the consumer act. It makes no difference whether the transformations are
kept by the flow or come after it. Of records that are there already none is lost. -/
theorem gathers_collected (m : Mapper α) (stages : List Stage) (capacity : Nat) (items : List Item)
    (records : List Record) :
    (∃ result memory,
      (∀ result' memory',
        Collected m items result' memory' ↔ result' = result ∧ memory' = memory) ∧
      Gathers (ofFlow m (.ofCapacity capacity) items) result memory) ∧
    (∃ result memory, Collected (.ofStages stages) items result memory ∧
      Gathers (ofFlow .plain (stages.foldl Flow.map (.ofCapacity capacity)) items) result ()) ∧
    (∃ result memory,
      (∀ result' memory',
        Collected m (records.map .ok) result' memory' ↔ result' = result ∧ memory' = memory) ∧
      Gathers (ofFlow m (.ofRecords records) []) result memory) ∧
    (∃ result memory, Collected (.ofStages stages) (records.map .ok) result memory ∧
      (stages.foldl Flow.map (.ofRecords records)).collect.1 = some result) ∧
    (Flow.ofRecords records).collect.1 = some (.ok records) := by
  refine ⟨?_, exists_gathers_stages stages capacity items, ?_, ?_, ?_⟩
  · exact exists_gathers m (.ofCapacity capacity) items rfl rfl (Nat.le_max_right _ _) rfl
      (.inl ⟨0, rfl⟩)
  · have gathers := exists_gathers m (.ofRecords records) []
    rw [Flow.ofRecords_eq, List.append_nil] at gathers
    rw [Flow.ofRecords_eq]
    exact gathers rfl rfl (Nat.le_max_right _ _) rfl (.inr ⟨rfl, rfl⟩)
  · exact ⟨_, _, Mapper.collected_iff.mpr rfl, Flow.collect_ofRecords stages records⟩
  · have all : Mapper.plain.Collected (records.map .ok) (.ok records) () :=
      .all (m := .plain) records records () rfl
    have collected := Flow.collect_ofRecords [] records
    rw [Mapper.ofStages, List.foldl_nil, List.foldl_nil, Mapper.collected_iff.mp all] at collected
    exact collected

end Gatherer

end RowStore
