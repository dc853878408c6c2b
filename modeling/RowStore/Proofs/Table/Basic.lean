import Mathlib
import RowStore.Proofs.Batch.ReadBack

/-!
# Tables with a key

What a server makes of statements that insert rows. A table has at most one row for each id, and a
row has a literal in each column: `NULL` in the columns that its statement does not list. Which ids
are the same id is for the server to say.
-/

namespace RowStore

open Batch (Verb)
open Sql (Insert Literal)

/-! ## Rows -/

/-- A row as a statement lists it: literals with their columns. -/
abbrev Listing := List (String × Literal)

namespace Listing

def columns (row : Listing) : List String := row.map (·.1)

/-- What the row has in a column. -/
def cell (row : Listing) (column : String) : Literal := (row.lookup column).getD .null

end Listing

/-- What is fixed about a table. -/
structure Layout (κ : Type) where
  /-- The names that its statements call it by. -/
  path : List String
  columns : List String
  /-- Ids with the same key are the same id. -/
  key : Literal → κ
  identified : "id" ∈ columns

namespace Layout

variable {κ : Type} (l : Layout κ)

def keyOf (row : Listing) : κ := l.key (row.cell "id")

/-- The row with a literal in each column of the table. -/
def cells (row : Listing) : List Literal := l.columns.map row.cell

/-- What a row must be like wherever it is put. -/
structure Fits (row : Listing) : Prop where
  distinct : row.columns.Nodup
  known : ∀ column ∈ row.columns, column ∈ l.columns
  identified : row.cell "id" ≠ .null

theorem fits_iff (row : Listing) :
    l.Fits row ↔ row.columns.Nodup ∧ (∀ column ∈ row.columns, column ∈ l.columns) ∧
      row.cell "id" ≠ .null :=
  ⟨fun ⟨distinct, known, identified⟩ => ⟨distinct, known, identified⟩,
    fun ⟨distinct, known, identified⟩ => ⟨distinct, known, identified⟩⟩

instance (row : Listing) : Decidable (l.Fits row) := decidable_of_iff _ (l.fits_iff row).symm

end Layout

theorem Listing.cell_zip (columns : List String) (row : Listing) {column : String}
    (h : column ∈ columns) :
    Listing.cell (columns.zip (columns.map row.cell)) column = row.cell column := by
  have hlookup : (columns.zip (columns.map row.cell)).lookup column = some (row.cell column) := by
    induction columns with
    | nil => cases h
    | cons first rest ih =>
      rw [List.map_cons, List.zip_cons_cons, List.lookup_cons]
      by_cases here : column = first
      · simp [here]
      · rw [beq_false_of_ne here]
        exact ih ((List.mem_cons.mp h).resolve_left here)
  rw [cell, hlookup, Option.getD_some]

/-! ## Tables -/

variable {κ : Type}

structure Table (l : Layout κ) where
  rows : κ → Option (List Literal)
  keyed : ∀ k cells, rows k = some cells →
    Listing.cell (l.columns.zip cells) "id" ≠ .null ∧ l.keyOf (l.columns.zip cells) = k

namespace Table

variable {l : Layout κ}

def empty (l : Layout κ) : Table l := ⟨fun _ => none, fun _ _ h => by cases h⟩

@[ext] theorem ext {t u : Table l} (h : ∀ k, t.rows k = u.rows k) : t = u := by
  obtain ⟨rows, _⟩ := t
  obtain ⟨rows', _⟩ := u
  obtain rfl : rows = rows' := funext h
  rfl

variable [DecidableEq κ]

/-- The table with one row more, or with this row in place of the one with its id. -/
def store (t : Table l) (row : Listing) (h : row.cell "id" ≠ .null) : Table l where
  rows := Function.update t.rows (l.keyOf row) (some (l.cells row))
  keyed := by
    intro k cells found
    have same : Listing.cell (l.columns.zip (l.cells row)) "id" = row.cell "id" :=
      row.cell_zip l.columns l.identified
    by_cases here : k = l.keyOf row
    · obtain rfl : l.cells row = cells := by simpa [here] using found
      exact ⟨same ▸ h, by rw [here, Layout.keyOf, same, Layout.keyOf]⟩
    · rw [Function.update_of_ne here] at found
      exact t.keyed k cells found

/-- Puts one row into a table, unless it does not fit or a new row has an id that is there. -/
def put (t : Table l) (verb : Verb) (row : Listing) : Option (Table l) :=
  if h : l.Fits row ∧ (verb = .insert → t.rows (l.keyOf row) = none) then
    some (t.store row h.1.identified)
  else none

def putAll (t : Table l) (verb : Verb) (rows : List Listing) : Option (Table l) :=
  rows.foldlM (fun t row => t.put verb row) t

/-- Carries out a statement for this table: all of its rows are put, in their order, or none. -/
def carryOut (t : Table l) (i : Insert) : Option (Table l) := do
  let verb ← [Verb.insert, .replace].find? fun verb => verb.text = i.verb
  if i.path = l.path ∧ ∀ row ∈ i.rows, row.length = i.columns.length then
    t.putAll verb (i.rows.map i.columns.zip)
  else none

def execute (t : Table l) (sql : String) : Option (Table l) :=
  (Batch.readBack? sql).bind t.carryOut

def executeAll (t : Table l) (statements : List String) : Option (Table l) :=
  statements.foldlM execute t

/-! ## Putting rows -/

variable {t t' : Table l} {verb : Verb} {row : Listing}

theorem put_eq_some :
    t.put verb row = some t' ↔ l.Fits row ∧ (verb = .insert → t.rows (l.keyOf row) = none) ∧
      ∀ k, t'.rows k = if k = l.keyOf row then some (l.cells row) else t.rows k := by
  unfold put
  split
  · rename_i h
    have stored (k : κ) : (t.store row h.1.identified).rows k =
        if k = l.keyOf row then some (l.cells row) else t.rows k :=
      Function.update_apply t.rows _ _ k
    rw [Option.some_inj]
    constructor
    · rintro rfl
      exact ⟨h.1, h.2, stored⟩
    · rintro ⟨-, -, same⟩
      exact Table.ext fun k => (stored k).trans (same k).symm
  · rename_i h
    constructor
    · exact fun refused => by cases refused
    · exact fun ⟨fits, new, _⟩ => absurd ⟨fits, new⟩ h

theorem put_congr {other : Listing} (fits : l.Fits row) (fits' : l.Fits other)
    (same : row.cell = other.cell) : t.put verb row = t.put verb other := by
  have key : l.keyOf row = l.keyOf other := by rw [Layout.keyOf, same, Layout.keyOf]
  have cells : l.cells row = l.cells other := by rw [Layout.cells, same, Layout.cells]
  refine Option.ext fun t' => ?_
  rw [put_eq_some, put_eq_some, iff_of_true fits fits', key, cells]

theorem putAll_cons (rows : List Listing) :
    t.putAll verb (row :: rows) = (t.put verb row).bind fun t => t.putAll verb rows :=
  List.foldlM_cons ..

theorem putAll_append (rows more : List Listing) :
    t.putAll verb (rows ++ more) = (t.putAll verb rows).bind fun t => t.putAll verb more :=
  List.foldlM_append ..

theorem putAll_congr {rows others : List Listing}
    (h : List.Forall₂ (fun row other => ∀ t : Table l, t.put verb row = t.put verb other)
      rows others) : t.putAll verb rows = t.putAll verb others := by
  induction h generalizing t with
  | nil => rfl
  | cons same _ ih =>
    rw [putAll_cons, putAll_cons, same t]
    exact congrArg _ (funext fun t => ih)

theorem executeAll_cons {sql : String} {rest : List String} :
    t.executeAll (sql :: rest) = some t' ↔
      ∃ t₁, t.execute sql = some t₁ ∧ t₁.executeAll rest = some t' := by
  rw [executeAll, List.foldlM_cons]
  exact Option.bind_eq_some_iff

theorem exists_putAll {rows : List Listing} (fits : ∀ row ∈ rows, l.Fits row)
    (new : verb = .insert → (rows.map l.keyOf).Nodup ∧ ∀ row ∈ rows, t.rows (l.keyOf row) = none) :
    ∃ t', t.putAll verb rows = some t' := by
  induction rows generalizing t with
  | nil => exact ⟨t, rfl⟩
  | cons row rest ih =>
    obtain ⟨fits, others⟩ := List.forall_mem_cons.mp fits
    obtain ⟨t₁, stored⟩ : ∃ t₁, t.put verb row = some t₁ :=
      ⟨t.store row fits.identified, dif_pos ⟨fits, fun h => (new h).2 row List.mem_cons_self⟩⟩
    have ⟨_, _, same⟩ := put_eq_some.mp stored
    -- The first row takes no id from the others.
    obtain ⟨t', done⟩ := ih (t := t₁) others fun h => by
      obtain ⟨distinct, free⟩ := new h
      rw [List.map_cons, List.nodup_cons] at distinct
      refine ⟨distinct.2, fun other mem => ?_⟩
      have apart : l.keyOf other ≠ l.keyOf row :=
        fun h => distinct.1 (h ▸ List.mem_map_of_mem mem)
      rw [same, if_neg apart]
      exact free other (List.mem_cons_of_mem row mem)
    exact ⟨t', by rw [putAll_cons, stored, Option.bind_some, done]⟩

/-! ## Rows that replace others -/

theorem putAll_other {rows : List Listing} (h : t.putAll verb rows = some t') {k : κ}
    (other : k ∉ rows.map l.keyOf) : t'.rows k = t.rows k := by
  induction rows generalizing t with
  | nil => rw [Option.some.inj h]
  | cons row rest ih =>
    rw [List.map_cons, List.mem_cons, not_or] at other
    rw [putAll_cons, Option.bind_eq_some_iff] at h
    obtain ⟨t₁, stored, h⟩ := h
    have ⟨_, _, same⟩ := put_eq_some.mp stored
    rw [ih h other.2, same, if_neg other.1]

theorem putAll_agree {rows : List Listing} {u u' : Table l} (h : t.putAll verb rows = some t')
    (h' : u.putAll verb rows = some u') {k : κ}
    (agree : k ∈ rows.map l.keyOf ∨ t.rows k = u.rows k) : t'.rows k = u'.rows k := by
  induction rows generalizing t u with
  | nil =>
    rw [← Option.some.inj h, ← Option.some.inj h']
    exact agree.resolve_left List.not_mem_nil
  | cons row rest ih =>
    rw [putAll_cons, Option.bind_eq_some_iff] at h h'
    obtain ⟨t₁, stored, h⟩ := h
    obtain ⟨u₁, stored', h'⟩ := h'
    have ⟨_, _, same⟩ := put_eq_some.mp stored
    have ⟨_, _, same'⟩ := put_eq_some.mp stored'
    refine ih h h' ?_
    by_cases here : k = l.keyOf row
    · exact .inr (by rw [same, same', if_pos here, if_pos here])
    · rw [List.map_cons, List.mem_cons] at agree
      rw [same, same', if_neg here, if_neg here]
      exact agree.imp_left fun h => h.resolve_left here

end Table

end RowStore
