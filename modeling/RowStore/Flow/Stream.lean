import RowStore.Flow.Pump

/-!
# Streams

A stream is the consumer's side of a flow with a pump at the other end. Whenever the consumer finds
nothing, the pump has its turn, so that a stream can be read from end to end.
-/

namespace RowStore

structure Stream (α : Type) where
  pump : Pump
  /-- What the consumer makes of a record. -/
  finish : Record → Except Fault α

namespace Stream

def ofItems (capacity : Nat) (items : List Item) : Stream Record := ⟨.ofItems capacity items, .ok⟩

def empty : Stream Record := ⟨.drained, .ok⟩

variable {α β : Type}

def map (s : Stream α) (f : α → Except Fault β) : Stream β := ⟨s.pump, fun r => s.finish r >>= f⟩

def onFlow (f : Flow → Flow) (s : Stream α) : Stream α :=
  { s with pump := { s.pump with flow := f s.pump.flow } }

def pause (s : Stream α) : Stream α := s.onFlow Flow.pause

def resume (s : Stream α) : Stream α := s.onFlow Flow.resume

/-- The next value if there is one now: `none` inside at the end, and outside when it is still to
come. -/
def take (s : Stream α) : Option (Option (Except Fault α)) × Stream α :=
  let (taken, flow) := s.pump.flow.next
  let answer := match taken with
    | .item i => some (some (i >>= s.finish))
    | .ended | .gone => some none
    | .pending => none
  (answer, s.onFlow fun _ => flow)

/-- Waits for the next value. With the flow paused and nothing in the buffer there would be no end
to the waiting, which is the outer `none`. -/
def next (s : Stream α) : Option (Option (Except Fault α)) × Stream α :=
  match s.take with
  | (none, s) => { s with pump := s.pump.turn }.take
  | r => r

/-- At least the number of values to come: the items in the buffer, the one in the pump's hand,
and those in the source. -/
def remaining (s : Stream α) : Nat := s.pump.flow.buffer.length + s.pump.source.length + 1

def collectFrom : Nat → Stream α → Option (Except Fault (List α))
  | 0, _ => none
  | fuel + 1, s =>
    match s.next with
    | (some (some (.ok value)), s) => (collectFrom fuel s).map fun rest => (value :: ·) <$> rest
    | (some (some (.error fault)), _) => some (.error fault)
    | (some none, _) => some (.ok [])
    | (none, _) => none

/-- All values, or the first failure. -/
def collect (s : Stream α) : Option (Except Fault (List α)) := collectFrom (s.remaining + 1) s

end Stream

end RowStore
