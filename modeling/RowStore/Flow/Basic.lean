import RowStore.Fault
import RowStore.Record

/-!
# Flows

A flow carries records from one producer to one consumer through a buffer of bounded size. The
consumer may pause the producer, cancel the flow, or go away; the producer may go away when it has
nothing more. Each side acts in single steps, and a step that cannot be finished now is pending
and is taken up again later.
-/

namespace RowStore

/-- What travels: a record, or a failure of its source. -/
abbrev Item := Except Fault Record

/-- A transformation of records on their way out. It is given the records that came to it before,
the last one first. -/
abbrev Stage := List Record → Record → Except Fault Record

namespace Flow

/-- Where the producer stands. `seen` is the version of the pause switch that it last looked at. -/
inductive Producer where
  | gone
  | idle (seen : Nat)
  /-- Found the flow paused. It waits for the switch, and has an item to send or none. -/
  | waiting (seen : Nat) (errand : Option Item)
  /-- Past the pause, with an item in hand. -/
  | offering (seen : Nat) (item : Item)
  /-- Found the buffer full. A slot that becomes free is granted to it. -/
  | queued (seen : Nat) (item : Item) (granted : Bool)

inductive Consumer where
  | gone
  /-- The stages in the order of the transformations, each with the records that came to it. -/
  | present (stages : List (Stage × List Record))

end Flow

structure Flow where
  capacity : Nat
  /-- Items that were accepted and not taken yet, the oldest first. -/
  buffer : List Item
  paused : Bool
  /-- How often the pause switch was set, to either side. -/
  version : Nat
  cancelled : Bool
  producer : Flow.Producer
  consumer : Flow.Consumer

namespace Flow

/-- A flow between two ends. It holds at least one item. -/
def ofCapacity (capacity : Nat) : Flow where
  capacity := max capacity 1
  buffer := []
  paused := false
  version := 0
  cancelled := false
  producer := .idle 0
  consumer := .present []

def drained : Flow := { ofCapacity 1 with producer := .gone }

/-- The slots that neither an item nor a promise takes up. -/
def free (f : Flow) : Nat :=
  let granted := match f.producer with
    | .queued _ _ true => 1
    | _ => 0
  f.capacity - f.buffer.length - granted

/-- Puts an item into the buffer without waiting. The item is lost when there is no room for it. -/
def trySend (f : Flow) (item : Item) : Bool × Flow :=
  if f.cancelled || f.free == 0 then (false, f)
  else (true, { f with buffer := f.buffer ++ [item] })

/-! ## The producer -/

/-- What the producer hears of its call. -/
inductive Reply where
  /-- The call is over: the item is accepted, or the flow is not paused; or it is over. -/
  | done (accepted : Bool)
  | pending
  | busy
  | idle
  | gone
  deriving DecidableEq

/-- One look at cancellation and at the pause switch. -/
def look (f : Flow) (seen : Nat) (errand : Option Item) : Reply × Flow :=
  if f.cancelled then (.done false, { f with producer := .idle seen })
  else if f.paused then (.pending, { f with producer := .waiting f.version errand })
  else
    match errand with
    | none => (.done true, { f with producer := .idle f.version })
    | some item => (.pending, { f with producer := .offering f.version item })

def accept (f : Flow) (seen : Nat) (item : Item) : Reply × Flow :=
  (.done true, { f with buffer := f.buffer ++ [item], producer := .idle seen })

def offer (f : Flow) (seen : Nat) (item : Item) : Reply × Flow :=
  if f.cancelled then (.done false, { f with producer := .idle seen })
  else if 0 < f.free then f.accept seen item
  else (.pending, { f with producer := .queued seen item false })

/-- True when the producer has a reason to look again. -/
def awake (f : Flow) (seen : Nat) : Bool := f.cancelled || f.version != seen

def step (f : Flow) : Reply × Flow :=
  match f.producer with
  | .gone => (.gone, f)
  | .idle _ => (.idle, f)
  | .waiting seen errand => if f.awake seen then f.look seen errand else (.pending, f)
  | .offering seen item => f.offer seen item
  | .queued seen item granted =>
    if f.cancelled then (.done false, { f with producer := .idle seen })
    else if granted then f.accept seen item
    else (.pending, f)

/-- The first step of a call, which goes as far as the first look. -/
def begin (f : Flow) (errand : Option Item) : Reply × Flow :=
  match f.producer with
  | .gone => (.gone, f)
  | .idle seen => f.look seen errand
  | _ => (.busy, f)

/-- Past the pause, the next step follows at once. -/
def settle (r : Reply × Flow) : Reply × Flow :=
  match r.2.producer with
  | .offering _ _ => r.2.step
  | _ => r

/-- Starts a call: waits until the flow is not paused, then sends the item if there is one. -/
def start (f : Flow) (errand : Option Item) : Reply × Flow :=
  match f.producer with
  | .idle _ => settle (f.begin errand)
  | _ => f.begin errand

def send (f : Flow) (item : Item) : Reply × Flow := f.start (some item)

def waitResumed (f : Flow) : Reply × Flow := f.start none

/-- Takes up the unfinished call again. -/
def poll (f : Flow) : Reply × Flow := settle f.step

def dropProducer (f : Flow) : Flow := { f with producer := .gone }

/-- A flow of records that are there already. Nobody looks whether they were accepted. -/
def ofRecords (records : List Record) : Flow :=
  (records.foldl (fun f r => (f.trySend (.ok r)).2) (ofCapacity records.length)).dropProducer

/-! ## The consumer -/

/-- Runs a record through the stages. A stage that fails is the last one to see it. -/
def runStages : List (Stage × List Record) → Record →
    Except Fault Record × List (Stage × List Record)
  | [], r => (.ok r, [])
  | (stage, seen) :: rest, r =>
    match stage seen r with
    | .error fault => (.error fault, (stage, r :: seen) :: rest)
    | .ok next =>
      let (result, rest) := runStages rest next
      (result, (stage, r :: seen) :: rest)

inductive Taken where
  | item (i : Item)
  | ended
  | pending
  | gone

/-- Gives a slot that has become free to a producer in the queue. -/
def grant (f : Flow) : Flow :=
  match f.producer with
  | .queued seen item false =>
    if f.cancelled then f else { f with producer := .queued seen item true }
  | _ => f

/-- True when no item can come any more into an empty buffer. -/
def exhausted (f : Flow) : Bool :=
  match f.producer with
  | .gone => true
  | .queued _ _ true => false
  | _ => f.cancelled

/-- Takes the oldest item. A failure of the source passes the stages by. -/
def next (f : Flow) : Taken × Flow :=
  match f.consumer with
  | .gone => (.gone, f)
  | .present stages =>
    match f.buffer with
    | [] => (if f.exhausted then .ended else .pending, f)
    | .error fault :: rest => (.item (.error fault), { f with buffer := rest }.grant)
    | .ok r :: rest =>
      let (result, stages) := runStages stages r
      (.item result, { f with buffer := rest, consumer := .present stages }.grant)

def map (f : Flow) (stage : Stage) : Flow :=
  match f.consumer with
  | .gone => f
  | .present stages => { f with consumer := .present (stages ++ [(stage, [])]) }

def setPaused (f : Flow) (paused : Bool) : Flow :=
  { f with paused := paused, version := f.version + 1 }

def pause (f : Flow) : Flow := f.setPaused true

def resume (f : Flow) : Flow := f.setPaused false

/-- Nothing more is accepted. What is in the buffer can still be taken. -/
def cancel (f : Flow) : Flow := { f with cancelled := true }

def dropConsumer (f : Flow) : Flow :=
  { f with cancelled := true, buffer := [], consumer := .gone }

/-- Takes items for as long as there are any, up to a failure. `none` means that the last one is
still to come. -/
def drain : Nat → Flow → Option (Except Fault (List Record))
  | 0, _ => none
  | fuel + 1, f =>
    match f.next with
    | (.item (.ok r), f) => (drain fuel f).map fun rest => (r :: ·) <$> rest
    | (.item (.error fault), _) => some (.error fault)
    | (.ended, _) => some (.ok [])
    | _ => none

/-- Takes what is there now and gives the flow up. -/
def collect (f : Flow) : Option (Except Fault (List Record)) × Flow :=
  (drain (f.buffer.length + 1) f, f.dropConsumer)

def inspect (f : Flow) : String :=
  let word (b : Bool) : String := if b then "true" else "false"
  "RowStream \x7b paused: " ++ word f.paused ++ ", cancelled: " ++ word f.cancelled ++ ", .. \x7d"

end Flow

end RowStore
