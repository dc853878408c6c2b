import Mathlib
import RowStore.Proofs.Flow.Ends

/-!
# Chains of transformations

What the consumer of a flow makes of a record: one transformation after the other, each from one
kind of value to the next. A transformation sees the values that came to it before, so what the
chain remembers is also the list of all calls that were made.
-/

namespace RowStore

/-- A chain that ends in values of the type `α`. The transformation that was added last is the last
one to be applied. -/
inductive Mapper : Type → Type 1 where
  | plain : Mapper Record
  | map {α β : Type} (inner : Mapper α) (f : List α → α → Except Fault β) : Mapper β

namespace Mapper

/-- For each transformation the values that came to it, the last one first. -/
def Memory : {α : Type} → Mapper α → Type
  | _, .plain => Unit
  | _, @Mapper.map α _ inner _ => inner.Memory × List α

/-- Before the first call. -/
def fresh : {α : Type} → (m : Mapper α) → m.Memory
  | _, .plain => ()
  | _, .map inner _ => (inner.fresh, [])

def run : {α : Type} → (m : Mapper α) → m.Memory → Record → Except Fault α × m.Memory
  | _, .plain, memory, r => (.ok r, memory)
  | _, .map inner f, memory, r =>
    match inner.run memory.1 r with
    | (.error fault, first) => (.error fault, (first, memory.2))
    | (.ok x, first) => (f memory.2 x, (first, x :: memory.2))

variable {α β : Type}

/-- A failure of the source passes the chain by. -/
def receive (m : Mapper α) (memory : m.Memory) : Item → Except Fault α × m.Memory
  | .error fault => (.error fault, memory)
  | .ok r => m.run memory r

/-- One item after the other, up to the first failure. -/
def collect (m : Mapper α) (memory : m.Memory) : List Item → Except Fault (List α) × m.Memory
  | [] => (.ok [], memory)
  | item :: rest =>
    match m.receive memory item with
    | (.error fault, memory) => (.error fault, memory)
    | (.ok x, memory) => ((x :: ·) <$> (m.collect memory rest).1, (m.collect memory rest).2)

/-! ## What comes out -/

/-- Applied to all of `xs` in their order, `f` gives `ys`. -/
def Makes (f : List α → α → Except Fault β) (xs : List α) (ys : List β) : Prop :=
  xs.mapIdx (fun k x => f (xs.take k).reverse x) = ys.map .ok

/-- Every transformation succeeds on all that comes to it from these records, and at the end of the
chain these are the values. -/
def Passes : {α : Type} → (m : Mapper α) → List Record → m.Memory → List α → Prop
  | _, .plain, records, _, values => values = records
  | _, .map inner f, records, memory, values =>
    ∃ xs, inner.Passes records memory.1 xs ∧ memory.2 = xs.reverse ∧ Makes f xs values

/-- After records that pass, a transformation fails on what comes to it from `r`. Those before it
saw `r`, and those behind it did not. -/
def Stops : {α : Type} → (m : Mapper α) → List Record → Record → m.Memory → Fault → Prop
  | _, .plain, _, _, _, _ => False
  | _, .map inner f, records, r, memory, fault =>
    (inner.Stops records r memory.1 fault ∧ ∃ before xs values, inner.Passes records before xs ∧
      memory.2 = xs.reverse ∧ Makes f xs values) ∨
    ∃ xs x values, inner.Passes (records ++ [r]) memory.1 (xs ++ [x]) ∧
      memory.2 = x :: xs.reverse ∧ Makes f xs values ∧ f xs.reverse x = .error fault

/-- What is to be collected from the items of a source: the values of all records in their order, or
the first failure. -/
inductive Collected (m : Mapper α) : List Item → Except Fault (List α) → m.Memory → Prop where
  | all (records : List Record) (values : List α) (memory : m.Memory)
      (passes : m.Passes records memory values) :
      Collected m (records.map .ok) (.ok values) memory
  | failed (records : List Record) (values : List α) (memory : m.Memory) (fault : Fault)
      (rest : List Item) (passes : m.Passes records memory values) :
      Collected m (records.map .ok ++ .error fault :: rest) (.error fault) memory
  | stopped (records : List Record) (r : Record) (memory : m.Memory) (fault : Fault)
      (rest : List Item) (stops : m.Stops records r memory fault) :
      Collected m (records.map .ok ++ .ok r :: rest) (.error fault) memory

/-! ## One record more -/

theorem makes_concat_iff {f : List α → α → Except Fault β} {xs : List α} {x : α} {zs : List β} :
    Makes f (xs ++ [x]) zs ↔ ∃ ys y, Makes f xs ys ∧ f xs.reverse x = .ok y ∧ zs = ys ++ [y] := by
  have hfront : xs.mapIdx (fun k x' => f ((xs ++ [x]).take k).reverse x') =
      xs.mapIdx (fun k x' => f (xs.take k).reverse x') := by
    rw [List.mapIdx_eq_mapIdx_iff]
    intro k hk
    rw [List.take_append_of_le_length hk.le]
  rw [Makes, List.mapIdx_concat, hfront, List.take_left, eq_comm, List.map_eq_append_iff]
  simp only [List.map_eq_singleton_iff]
  constructor
  · rintro ⟨ys, _, rfl, hys, y, rfl, hy⟩
    exact ⟨ys, y, hys.symm, hy.symm, rfl⟩
  · rintro ⟨ys, y, hys, hy, rfl⟩
    exact ⟨ys, [y], rfl, hys.symm, y, rfl, hy.symm⟩

section

variable {m : Mapper α} {f : List α → α → Except Fault β} {memory memory' : (m.map f).Memory}
  {r : Record}

theorem run_map_eq_ok {y : β} : (m.map f).run memory r = (.ok y, memory') ↔
    ∃ x, m.run memory.1 r = (.ok x, memory'.1) ∧ f memory.2 x = .ok y ∧
      memory'.2 = x :: memory.2 := by
  rw [run]
  constructor
  · intro h
    split at h
    · cases h
    · next x first inner =>
      obtain ⟨hy, rfl⟩ := Prod.mk.inj h
      exact ⟨x, inner, hy, rfl⟩
  · rintro ⟨x, inner, hy, seen⟩
    rw [inner]
    simp only [hy, ← seen]
    rfl

theorem run_map_eq_error {fault : Fault} : (m.map f).run memory r = (.error fault, memory') ↔
    (m.run memory.1 r = (.error fault, memory'.1) ∧ memory'.2 = memory.2) ∨
    ∃ x, m.run memory.1 r = (.ok x, memory'.1) ∧ f memory.2 x = .error fault ∧
      memory'.2 = x :: memory.2 := by
  rw [run]
  constructor
  · intro h
    split at h
    · next inner =>
      cases h
      exact .inl ⟨inner, rfl⟩
    · next x first inner =>
      obtain ⟨hy, rfl⟩ := Prod.mk.inj h
      exact .inr ⟨x, inner, hy, rfl⟩
  · rintro (⟨inner, seen⟩ | ⟨x, inner, hy, seen⟩)
    · rw [inner]
      simp only [← seen]
      rfl
    · rw [inner]
      simp only [hy, ← seen]
      rfl

end

theorem passes_nil_iff (m : Mapper α) {memory : m.Memory} {values : List α} :
    m.Passes [] memory values ↔ memory = m.fresh ∧ values = [] := by
  induction m with
  | plain => exact ⟨fun h => ⟨rfl, h⟩, And.right⟩
  | map inner f ih =>
    simp only [Passes, ih]
    constructor
    · rintro ⟨_, ⟨first, rfl⟩, seen, made⟩
      refine ⟨Prod.ext first seen, ?_⟩
      simpa [Makes] using made.symm
    · rintro ⟨rfl, rfl⟩
      exact ⟨[], ⟨rfl, rfl⟩, rfl, rfl⟩

theorem passes_concat_iff (m : Mapper α) {records : List Record} {r : Record} {memory : m.Memory}
    {values : List α} :
    m.Passes (records ++ [r]) memory values ↔ ∃ before front x, m.Passes records before front ∧
      m.run before r = (.ok x, memory) ∧ values = front ++ [x] := by
  induction m with
  | plain =>
    constructor
    · rintro rfl
      exact ⟨(), records, r, rfl, rfl, rfl⟩
    · rintro ⟨_, _, _, rfl, h, rfl⟩
      cases h
      rfl
  | map inner f ih =>
    -- A stage remembers what it has seen, the last record first.
    simp only [Passes, ih, run_map_eq_ok]
    constructor
    · rintro ⟨_, ⟨before, xs, x, passes, inside, rfl⟩, seen, made⟩
      obtain ⟨ys, y, front, hy, rfl⟩ := makes_concat_iff.mp made
      refine ⟨(before, xs.reverse), ys, y, ⟨xs, passes, rfl, front⟩, ⟨x, inside, hy, ?_⟩, rfl⟩
      rw [seen, List.reverse_append]
      rfl
    · rintro ⟨before, ys, y, ⟨xs, passes, seen, made⟩, ⟨x, inside, hy, seen'⟩, rfl⟩
      rw [seen] at hy seen'
      refine ⟨xs ++ [x], ⟨before.1, xs, x, passes, inside, rfl⟩, ?_,
        makes_concat_iff.mpr ⟨ys, y, made, hy, rfl⟩⟩
      rw [seen', List.reverse_append]
      rfl

theorem Passes.unique {m : Mapper α} {records : List Record} {first second : m.Memory}
    {xs ys : List α} (hx : m.Passes records first xs) (hy : m.Passes records second ys) :
    first = second ∧ xs = ys := by
  induction records using List.reverseRecOn generalizing first second xs ys with
  | nil =>
    obtain ⟨rfl, rfl⟩ := m.passes_nil_iff.mp hx
    obtain ⟨rfl, rfl⟩ := m.passes_nil_iff.mp hy
    exact ⟨rfl, rfl⟩
  | append_singleton records r ih =>
    obtain ⟨before, xs, x, frontx, ranx, rfl⟩ := m.passes_concat_iff.mp hx
    obtain ⟨before', ys, y, fronty, rany, rfl⟩ := m.passes_concat_iff.mp hy
    obtain ⟨rfl, rfl⟩ := ih frontx fronty
    cases ranx.symm.trans rany
    exact ⟨rfl, rfl⟩

theorem stops_iff (m : Mapper α) {records : List Record} {r : Record} {memory : m.Memory}
    {fault : Fault} :
    m.Stops records r memory fault ↔
      ∃ before values, m.Passes records before values ∧
        m.run before r = (.error fault, memory) := by
  induction m with
  | plain =>
    refine iff_of_false id ?_
    rintro ⟨_, _, _, h⟩
    cases h
  | map inner f ih =>
    -- The inner chain stops, or it lets the record through and the stage stops.
    simp only [Stops, Passes, ih, run_map_eq_error, passes_concat_iff]
    constructor
    · rintro (⟨⟨before, xs, passes, inside⟩, before', xs', values, passes', seen, made⟩ |
        ⟨xs, x, values, ⟨before, xs', x', passes, inside, same⟩, seen, made, failed⟩)
      · obtain ⟨rfl, rfl⟩ := passes.unique passes'
        exact ⟨(before, xs.reverse), values, ⟨xs, passes, rfl, made⟩, .inl ⟨inside, seen⟩⟩
      · obtain ⟨rfl, ⟨⟩⟩ := List.append_inj' same rfl
        exact ⟨(before, xs.reverse), values, ⟨xs, passes, rfl, made⟩,
          .inr ⟨x, inside, failed, seen⟩⟩
    · rintro ⟨before, values, ⟨xs, passes, seen, made⟩, ⟨inside, same⟩ | ⟨x, inside, failed, seen'⟩⟩
      · exact .inl ⟨⟨before.1, xs, passes, inside⟩, before.1, xs, values, passes,
          same.trans seen, made⟩
      · rw [seen] at failed seen'
        exact .inr ⟨xs, x, values, ⟨before.1, xs, x, passes, inside, rfl⟩, seen', made, failed⟩

/-! ## All items -/

theorem collect_of_passes {m : Mapper α} {records : List Record} {memory : m.Memory}
    {values : List α} (passes : m.Passes records memory values) (rest : List Item) :
    m.collect m.fresh (records.map .ok ++ rest) =
      ((values ++ ·) <$> (m.collect memory rest).1, (m.collect memory rest).2) := by
  induction records using List.reverseRecOn generalizing memory values rest with
  | nil =>
    obtain ⟨rfl, rfl⟩ := m.passes_nil_iff.mp passes
    simp
  | append_singleton records r ih =>
    obtain ⟨before, front, x, passed, ran, rfl⟩ := m.passes_concat_iff.mp passes
    rw [List.map_append, List.append_assoc, ih passed]
    simp [collect, receive, ran, Functor.map_map]

theorem passes_or_stops (m : Mapper α) (records : List Record) :
    (∃ memory values, m.Passes records memory values) ∨
    ∃ front r back memory fault, records = front ++ r :: back ∧ m.Stops front r memory fault := by
  induction records using List.reverseRecOn with
  | nil => exact .inl ⟨m.fresh, [], m.passes_nil_iff.mpr ⟨rfl, rfl⟩⟩
  | append_singleton records r ih =>
    obtain ⟨memory, values, passes⟩ | ⟨front, r', back, memory, fault, rfl, stops⟩ := ih
    · rcases ran : m.run memory r with ⟨fault | x, memory'⟩
      · exact .inr ⟨records, r, [], memory', fault, rfl, m.stops_iff.mpr ⟨_, _, passes, ran⟩⟩
      · exact .inl ⟨memory', _, m.passes_concat_iff.mpr ⟨_, _, _, passes, ran, rfl⟩⟩
    · exact .inr ⟨front, r', back ++ [r], memory, fault, by simp, stops⟩

theorem exists_records (items : List Item) : ∃ records : List Record,
    items = records.map .ok ∨ ∃ fault rest, items = records.map .ok ++ .error fault :: rest := by
  induction items with
  | nil => exact ⟨[], .inl rfl⟩
  | cons item rest ih =>
    cases item with
    | error fault => exact ⟨[], .inr ⟨fault, rest, rfl⟩⟩
    | ok r =>
      obtain ⟨records, rfl | ⟨fault, rest, rfl⟩⟩ := ih
      · exact ⟨r :: records, .inl rfl⟩
      · exact ⟨r :: records, .inr ⟨fault, rest, rfl⟩⟩

theorem exists_collected (m : Mapper α) (items : List Item) :
    ∃ result memory, Collected m items result memory := by
  obtain ⟨records, h⟩ := exists_records items
  obtain ⟨memory, values, passes⟩ | ⟨front, r, back, memory, fault, rfl, stops⟩ :=
    m.passes_or_stops records
  · obtain rfl | ⟨fault, rest, rfl⟩ := h
    · exact ⟨_, _, .all records values memory passes⟩
    · exact ⟨_, _, .failed records values memory fault rest passes⟩
  · obtain rfl | ⟨fault', rest, rfl⟩ := h
    · rw [List.map_append, List.map_cons]
      exact ⟨_, _, .stopped front r memory fault (back.map .ok) stops⟩
    · rw [List.map_append, List.map_cons, List.append_assoc, List.cons_append]
      exact ⟨_, _, .stopped front r memory fault (back.map .ok ++ .error fault' :: rest) stops⟩

theorem collect_of_collected {m : Mapper α} {items : List Item} {result : Except Fault (List α)}
    {memory : m.Memory} (h : Collected m items result memory) :
    m.collect m.fresh items = (result, memory) := by
  cases h with
  | all records values memory passes =>
    have h := collect_of_passes passes []
    simpa [collect] using h
  | failed records values memory fault rest passes => exact collect_of_passes passes _
  | stopped records r memory fault rest stops =>
    obtain ⟨before, values, passes, ran⟩ := m.stops_iff.mp stops
    rw [collect_of_passes passes, collect, receive, ran]
    rfl

theorem collected_iff {m : Mapper α} {items : List Item} {result : Except Fault (List α)}
    {memory : m.Memory} :
    Collected m items result memory ↔ m.collect m.fresh items = (result, memory) := by
  refine ⟨collect_of_collected, fun h => ?_⟩
  obtain ⟨result', memory', collected⟩ := m.exists_collected items
  cases (collect_of_collected collected).symm.trans h
  exact collected

/-! ## The transformations that a flow keeps -/

/-- A chain of transformations of records, and the stages of a flow that remember the same. -/
inductive Keeps : (m : Mapper Record) → m.Memory → List (Stage × List Record) → Prop where
  | plain : Keeps .plain () []
  | map {inner : Mapper Record} {memory : inner.Memory} {stages : List (Stage × List Record)}
      (f : Stage) (seen : List Record) (keeps : Keeps inner memory stages) :
      Keeps (inner.map f) (memory, seen) (stages ++ [(f, seen)])

/-- The chain that a flow has after these stages were added to it. -/
def ofStages (stages : List Stage) : Mapper Record := stages.foldl map plain

theorem keeps_fresh (stages : List Stage) :
    Keeps (ofStages stages) (ofStages stages).fresh (stages.map fun stage => (stage, [])) := by
  induction stages using List.reverseRecOn with
  | nil => exact .plain
  | append_singleton stages stage ih =>
    rw [ofStages, List.foldl_append, List.map_append]
    exact .map stage [] ih

end Mapper

namespace Flow

theorem runStages_concat (stages : List (Stage × List Record)) (stage : Stage) (seen : List Record)
    (r : Record) : runStages (stages ++ [(stage, seen)]) r =
      match runStages stages r with
      | (.error fault, kept) => (.error fault, kept ++ [(stage, seen)])
      | (.ok x, kept) => (stage seen x, kept ++ [(stage, x :: seen)]) := by
  induction stages generalizing r with
  | nil =>
    simp only [List.nil_append, runStages]
    cases stage seen r <;> rfl
  | cons first rest ih =>
    obtain ⟨f, before⟩ := first
    simp only [List.cons_append, runStages]
    cases f before r with
    | error fault => rfl
    | ok next =>
      simp only [ih]
      rcases runStages rest next with ⟨fault | x, kept⟩ <;> rfl

/-- What the stages of a flow make of an item, and what they remember then. -/
def pass (stages : List (Stage × List Record)) : Item → Item × List (Stage × List Record)
  | .error fault => (.error fault, stages)
  | .ok r => runStages stages r

theorem foldl_map (f : Flow) (present : f.consumer = .present []) (stages : List Stage) :
    stages.foldl map f = { f with consumer := .present (stages.map fun stage => (stage, [])) } := by
  induction stages using List.reverseRecOn with
  | nil =>
    rw [List.foldl_nil, List.map_nil, ← present]
  | append_singleton stages stage ih =>
    rw [List.foldl_append, ih, List.map_append]
    rfl

theorem next_of_buffer {f : Flow} {stages : List (Stage × List Record)} {item : Item}
    {rest : List Item} (present : f.consumer = .present stages) (first : f.buffer = item :: rest) :
    f.next = (.item (pass stages item).1,
      grant { f with buffer := rest, consumer := .present (pass stages item).2 }) := by
  unfold next
  rw [present, first]
  cases item with
  | error fault => simp only [pass, ← present]
  | ok r => rfl

end Flow

namespace Mapper

theorem Keeps.receive {m : Mapper Record} {memory : m.Memory} {stages : List (Stage × List Record)}
    (keeps : Keeps m memory stages) (item : Item) :
    (m.receive memory item).1 = (Flow.pass stages item).1 ∧
      Keeps m (m.receive memory item).2 (Flow.pass stages item).2 := by
  cases item with
  | error fault => exact ⟨rfl, keeps⟩
  | ok r =>
    induction keeps with
    | plain => exact ⟨rfl, .plain⟩
    | @map inner memory stages f seen keeps ih =>
      obtain ⟨same, kept⟩ := ih
      simp only [Mapper.receive, Flow.pass] at same kept
      simp only [Mapper.receive, Flow.pass, run, Flow.runStages_concat]
      rcases ran : inner.run memory r with ⟨result, memory'⟩
      rcases through : Flow.runStages stages r with ⟨result', stages'⟩
      rw [ran, through] at same kept
      obtain rfl : result = result' := same
      cases result with
      | error fault => exact ⟨rfl, .map f seen kept⟩
      | ok x => exact ⟨rfl, .map f (x :: seen) kept⟩

variable {α : Type}

/-- A chain behind the stages of a flow, one item after the other. -/
def collectThrough (m : Mapper α) (stages : List (Stage × List Record)) (memory : m.Memory) :
    List Item → Except Fault (List α) × m.Memory
  | [] => (.ok [], memory)
  | item :: rest =>
    match m.receive memory (Flow.pass stages item).1 with
    | (.error fault, memory) => (.error fault, memory)
    | (.ok x, memory) =>
      ((x :: ·) <$> (m.collectThrough (Flow.pass stages item).2 memory rest).1,
        (m.collectThrough (Flow.pass stages item).2 memory rest).2)

theorem collectThrough_nil (m : Mapper α) (memory : m.Memory) (items : List Item) :
    m.collectThrough [] memory items = m.collect memory items := by
  induction items generalizing memory with
  | nil => rfl
  | cons item rest ih =>
    have hpass : Flow.pass [] item = (item, []) := by cases item <;> rfl
    simp only [collectThrough, collect, hpass, ih]

theorem Keeps.collect {m : Mapper Record} {memory : m.Memory} {stages : List (Stage × List Record)}
    (keeps : Keeps m memory stages) (items : List Item) :
    (Mapper.plain.collectThrough stages () items).1 = (m.collect memory items).1 := by
  induction items generalizing memory stages with
  | nil => rfl
  | cons item rest ih =>
    obtain ⟨same, kept⟩ := keeps.receive item
    simp only [collectThrough, Mapper.collect, ← same]
    rcases ran : m.receive memory item with ⟨fault | x, memory'⟩
    · rfl
    · rw [ran] at kept
      exact congrArg ((x :: ·) <$> ·) (ih kept)

end Mapper

namespace Flow

theorem drain_eq {f : Flow} {stages : List (Stage × List Record)} {fuel : Nat}
    (present : f.consumer = .present stages) (gone : f.producer = .gone)
    (enough : f.buffer.length < fuel) :
    drain fuel f = some (Mapper.plain.collectThrough stages () f.buffer).1 := by
  induction fuel generalizing f stages with
  | zero => contradiction
  | succ fuel ih =>
    cases items : f.buffer with
    | nil => simp [drain, next, present, items, exhausted, gone, Mapper.collectThrough]
    | cons item rest =>
      rw [items, List.length_cons] at enough
      obtain ⟨later, taking, kept, left, same⟩ : ∃ later,
          f.next = (.item (pass stages item).1, later) ∧
          later.consumer = .present (pass stages item).2 ∧ later.producer = .gone ∧
          later.buffer = rest :=
        ⟨_, next_of_buffer present items, by simp, by simp [grant, gone], by simp⟩
      have others := ih kept left (by rw [same]; omega)
      rw [same] at others
      simp only [drain, taking, Mapper.collectThrough]
      rcases (pass stages item).1 with fault | x
      · rfl
      · simp only [others]
        rfl

theorem collect_ofRecords (stages : List Stage) (records : List Record) :
    (stages.foldl map (ofRecords records)).collect.1 =
      some ((Mapper.ofStages stages).collect (Mapper.ofStages stages).fresh
        (records.map .ok)).1 := by
  rw [ofRecords_eq, foldl_map _ rfl, collect, drain_eq rfl rfl (Nat.lt_succ_self _),
    (Mapper.keeps_fresh stages).collect]

end Flow

end RowStore
