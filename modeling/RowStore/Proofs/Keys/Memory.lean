import RowStore.Proofs.Keys.Table

/-!
# A table in memory

A server with nothing but one table of keys. It reads each statement and carries it out on the spot;
whatever it cannot read or carry out it refuses.
-/

namespace RowStore.KeyMemory

def refusal : Fault := .execution "the statement cannot be carried out"

def commandOf (path : List String) (sql : String) (params : List Value) :
    Except Fault KeyCommand :=
  match KeyCommand.read sql params with
  | some (named, command) => if named = path then .ok command else .error refusal
  | none => .error refusal

/-- The number of rows that a command changes. A row that is replaced counts once more. -/
def affected (t : KeyTable) : KeyCommand → Nat
  | .replace key _ => (t.entries.filter (·.1 == key)).length + 1
  | .delete conditions => (t.entries.filter (KeyEntry.passes conditions)).length
  | _ => 0

def rows (t : KeyTable) : KeyCommand → Except Fault (List String × List (List Cell))
  | .select columns conditions limit =>
    .ok (columns, (firsts limit (t.entries.filter (KeyEntry.passes conditions))).map fun e =>
      columns.map (KeyEntry.cell e))
  | .count column conditions =>
    .ok ([column],
      [[some (.int (.ofNat (t.entries.filter (KeyEntry.passes conditions)).length))]])
  | _ => .error refusal

def answer (path : List String) (sql : String) :
    Option KeyTable → Except Fault (List String × List (List Cell))
  | none => .error refusal
  | some t => commandOf path sql [] >>= rows t

def items : Except Fault (List String × List (List Cell)) → List Item
  | .ok (columns, rows) => rows.map fun cells => .ok (ResultRow.recordOfCells columns cells)
  | .error fault => [.error fault]

def execute (path : List String) (sql : String) (params : List Value)
    (server : Option KeyTable) : Except Fault Outcome × Option KeyTable :=
  match commandOf path sql params with
  | .error fault => (.error fault, server)
  | .ok command =>
    match command.carryOut server with
    | none => (.error refusal, server)
    | some after => (.ok ⟨.ofNat (server.elim 0 (affected · command)), none⟩, after)

def executor (path : List String) (capacity : Nat) : Executor (Option KeyTable) where
  select sql server := ((fun answer => .ofRows answer.1 answer.2) <$> answer path sql server, server)
  execute := execute path
  stream sql server :=
    (⟨fun later => (.ofItems capacity (items (answer path sql later)), later)⟩, server)
  ping server := (.ok (), server)

/-! ## It serves -/

section

variable {path : List String} {sql : String} {params : List Value} {command : KeyCommand}
variable {t : KeyTable}

theorem commandOf_eq (read : KeyCommand.read sql params = some (path, command)) :
    commandOf path sql params = .ok command := by
  simp [commandOf, read]

theorem finds_rows (found : ∃ columns rows, command.Finds t columns rows) :
    ∃ columns cells, rows t command = .ok (columns, cells) ∧ command.Finds t columns cells := by
  obtain ⟨columns, cells, finds⟩ := found
  cases command with
  | select names conditions limit => exact ⟨_, _, rfl, rfl, t.entries, .refl _, rfl⟩
  | count column conditions =>
    obtain ⟨-, n, -, size⟩ := finds
    have small := n.toInt_lt
    exact ⟨_, _, rfl, rfl, _, rfl, Int64.toInt_ofNat_of_lt (by omega)⟩
  | _ => exact finds.elim

theorem answer_finds (read : KeyCommand.read sql [] = some (path, command))
    (found : ∃ columns rows, command.Finds t columns rows) :
    ∃ columns cells, answer path sql (some t) = .ok (columns, cells) ∧
      command.Finds t columns cells := by
  obtain ⟨columns, cells, given, finds⟩ := finds_rows found
  refine ⟨columns, cells, ?_, finds⟩
  rw [answer, commandOf_eq read]
  exact given

theorem gather_records (columns : List String) (cells : List (List Cell)) :
    Stream.gather .ok (items (.ok (columns, cells))) =
      .ok (cells.map (ResultRow.recordOfCells columns)) := by
  induction cells with
  | nil => rfl
  | cons row rest ih =>
    rw [items, List.map_cons, Stream.gather_cons]
    rw [items] at ih
    rw [ih]
    rfl

end

theorem serves (path : List String) (capacity : Nat) :
    ServesKeys (executor path capacity) path id where
  execute {sql params server command after} read _ carried := by
    refine ⟨⟨.ofNat (server.elim 0 (affected · command)), none⟩, after, ?_, rfl, ?_⟩
    · change execute path sql params server = _
      rw [id_eq] at carried
      rw [execute, commandOf_eq read]
      simp only [carried]
    · rintro conditions t rfl there
      obtain rfl : server = some t := there
      rfl
  select {sql server command t} read _ there found := by
    obtain rfl : server = some t := there
    obtain ⟨columns, cells, given, finds⟩ := answer_finds read found
    refine ⟨columns, cells, some t, finds, ?_, rfl⟩
    change ((fun answer => ResultSet.ofRows answer.1 answer.2) <$> answer path sql (some t), _) = _
    rw [given]
    rfl
  stream {sql server command} read _ := by
    refine ⟨_, server, rfl, rfl, ?_⟩
    intro later t there found
    obtain rfl : later = some t := there
    obtain ⟨columns, cells, given, finds⟩ := answer_finds read found
    refine ⟨columns, cells, _, some t, finds, rfl, rfl, Pump.free_ofItems _ _, ?_⟩
    have all := Stream.gather_upToFailure .ok (items (answer path sql (some t)))
    refine Eq.trans all ?_
    rw [given]
    exact gather_records columns cells

end RowStore.KeyMemory
