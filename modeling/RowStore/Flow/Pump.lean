import RowStore.Flow.Basic

/-!
# Pumps

A pump is the producer of a flow whose items come from a source. Before each item it waits until
the flow is not paused; then it pulls the item, and then it sends it. It leaves when the source is
empty, after a failure, and when the flow is over. A step of a pump is one look at what it shares
with the consumer, so that the consumer can act between any two of them.
-/

namespace RowStore

namespace Pump

inductive Phase where
  | waiting
  /-- About to see whether the flow is over. -/
  | pulling
  /-- Found that it is not, and takes what the source has. -/
  | fetching
  | sending (item : Item)
  | gone

end Pump

structure Pump where
  flow : Flow
  /-- What the source has still to deliver, in this order. -/
  source : List Item
  phase : Pump.Phase

namespace Pump

def ofItems (capacity : Nat) (items : List Item) : Pump := ⟨.ofCapacity capacity, items, .waiting⟩

/-- A pump that has left a flow without anything in it. -/
def drained : Pump := ⟨.drained, [], .gone⟩

def leave (p : Pump) : Pump := { p with flow := p.flow.dropProducer, phase := .gone }

/-- The first step of a call of the producer, or the next one of the call that is not finished. -/
def call (p : Pump) (errand : Option Item) : Flow.Reply × Flow :=
  match p.flow.producer with
  | .idle _ => p.flow.begin errand
  | _ => p.flow.step

/-- Goes on to the phase `next` once a call is over. A call that is refused was the last. -/
def after (p : Pump) (r : Flow.Reply × Flow) (next : Phase) : Pump :=
  let p := { p with flow := r.2 }
  match r.1 with
  | .done true => { p with phase := next }
  | .done false => p.leave
  | _ => p

def step (p : Pump) : Pump :=
  match p.phase with
  | .gone => p
  | .waiting => p.after (p.call none) .pulling
  | .pulling => if p.flow.cancelled then p.leave else { p with phase := .fetching }
  | .fetching =>
    match p.source with
    | [] => p.leave
    | item :: rest => { p with source := rest, phase := .sending item }
  | .sending (.ok r) => p.after (p.call (some (.ok r))) .waiting
  | .sending (.error fault) =>
    match p.call (some (.error fault)) with
    | (.done _, flow) => { p with flow := flow }.leave
    | (_, flow) => { p with flow := flow }

/-- The steps that bring one item into the flow unless something holds the pump up: one to wait, two
to pull, and two to send. -/
def turn (p : Pump) : Pump := p.step.step.step.step.step

end Pump

end RowStore
