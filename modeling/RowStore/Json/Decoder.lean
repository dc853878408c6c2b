import RowStore.Json.Lexer

/-!
# Reading records out of documents

A decoder turns a document into a value of some type or reports the first problem in it. A record
is written as an object, or as a list of its fields in their order. Members with unknown names are
skipped; a name may not come twice.
-/

namespace RowStore.Json

/-- What a document says to someone who wants an `α`. The number is the nesting budget. -/
abbrev Decoder (α : Type) := Nat → Document → Except Problem α

namespace Decoder

/-! ## Single values -/

/-- The problem of a document that is not what is wanted. -/
def unwanted (want : String) (d : Document) : Problem := (d.mismatch want).problem

def text : Decoder String := fun _ d => ((d.toText "a string").map (·.1)).mapError Stop.problem

def flag : Decoder Bool
  | _, .bool b _ => .ok b
  | _, d => .error (unwanted "a boolean" d)

/-- A whole number below `limit`, which messages call `name`. -/
def unsigned (name : String) (limit : Nat) : Decoder Nat
  | _, .number n rest => do
    match ← n.toNumber with
    | .int i => if 0 ≤ i ∧ i < limit then .ok i.toNat else .error (.outOfRange i name)
    | .float _ => .error (unwanted name (.number n rest))
  | _, d => .error (unwanted name d)

def word (bits : Nat) : Decoder Nat := unsigned ("u" ++ natText bits) (Nat.pow 2 bits)

def size : Decoder Nat := unsigned "usize" UInt64.size

def json : Decoder Json := fun budget d => (d.toJson ofText budget).mapError Stop.problem

/-- Null is no value. -/
def optional {α : Type} (inner : Decoder α) : Decoder (Option α)
  | _, .null _ => .ok none
  | budget, d => some <$> inner budget d

def map {α β : Type} (f : α → Except Problem β) (inner : Decoder α) : Decoder β :=
  fun budget d => inner budget d >>= f

def list {α : Type} (inner : Decoder α) : Decoder (List α)
  | budget, .array _ items ending => do
    let budget ← Document.enter budget
    let values ← items.mapM (inner budget)
    ending.finish
    return values
  | _, d => .error (unwanted "a sequence" d)

/-! ## One name out of several -/

/-- The value that belongs to a name. -/
def named {α : Type} (variants : List (String × α)) (name : String) : Except Problem α :=
  match variants.lookup name with
  | some value => .ok value
  | none => .error (.unknownVariant name (variants.map (·.1)))

/-- A name as text, or as the key of an object whose one member is null. -/
def variant {α : Type} (variants : List (String × α)) : Decoder α
  | _, .string s _ => s.mapError Stop.problem >>= named variants
  | budget, .object _ members ending => do
    let _ ← Document.enter budget
    match members with
    | [] =>
      ending.finish
      throw .valueExpected
    | (key, d) :: more => do
      let value ← named variants (← key.mapError Stop.problem)
      match d with
      | .null _ => pure ()
      | d => throw (unwanted "unit" d)
      match more, ending with
      | [], none => return value
      | [], some ⟨_, _, .endInObject⟩ => throw .endInObject
      | _, _ => throw .valueExpected
  | _, .broken _ _ problem => .error problem
  | _, _ => .error .valueExpected

/-! ## Records -/

/-- One field of a record that is built up in a `σ`. A field that is not mandatory keeps what
the record starts with. -/
structure Field (σ : Type) where
  key : String
  mandatory : Bool
  decode : Nat → Document → σ → Except Problem σ

namespace Field

variable {σ α : Type}

def required (key : String) (inner : Decoder α) (put : α → σ → σ) : Field σ :=
  ⟨key, true, fun budget d s => (put · s) <$> inner budget d⟩

def defaulted (key : String) (inner : Decoder α) (put : α → σ → σ) : Field σ :=
  ⟨key, false, fun budget d s => (put · s) <$> inner budget d⟩

end Field

variable {σ : Type}

/-- The fields of a record as a list, each in its place. `all` is the number of fields. -/
def positions (name : String) (all : Nat) (budget : Nat) (ending : Ending) :
    List (Field σ) → List Document → σ → Except Problem σ
  | [], [], s => do
    ending.closing
    return s
  | [], _ :: _, _ => .error .trailingCharacters
  | f :: fs, [], s => do
    ending.finish
    if f.mandatory then throw (.tooFewElements (all - (fs.length + 1)) name all)
    positions name all budget ending fs [] s
  | f :: fs, d :: ds, s => do
    let s ← f.decode budget d s
    positions name all budget ending fs ds s

/-- One member of an object that stands for a record. `seen` lists the names so far. -/
def member (fields : List (Field σ)) (budget : Nat) (state : σ × List String)
    (entry : Quoted × Document) : Except Problem (σ × List String) := do
  let (s, seen) := state
  let key ← entry.1.mapError Stop.problem
  match fields.find? (·.key == key) with
  | none =>
    entry.2.skip
    return (s, seen)
  | some f =>
    if seen.contains key then throw (.duplicateField key)
    let s ← f.decode budget entry.2 s
    return (s, key :: seen)

/-- A record called `name`, which begins as `start`. -/
def record (name : String) (fields : List (Field σ)) (start : σ) : Decoder σ
  | budget, .array _ items ending => do
    let budget ← Document.enter budget
    positions name fields.length budget ending fields items start
  | budget, .object _ members ending => do
    let budget ← Document.enter budget
    let (s, seen) ← members.foldlM (member fields budget) (start, [])
    ending.finish
    match fields.find? (fun f => f.mandatory && !seen.contains f.key) with
    | some f => throw (.missingField f.key)
    | none => return s
  | _, d => .error (unwanted ("struct " ++ name) d)

def run {α : Type} (decoder : Decoder α) (source : String) : Except Problem α :=
  decodeText (decoder Document.nestingBudget) Stop.problem source

end Decoder

end RowStore.Json
