import RowStore.ColumnName
import RowStore.Query.Basic
import RowStore.Record
import RowStore.Sql.Statement

/-!
# The statement of a query

A query becomes a statement for each thing that can be done with its rows. A filter on an empty
list lets no row through, so a query with one has no statement at all; every filter is checked
before that is decided.
-/

namespace RowStore

open Sql (Condition Statement)

/-- The condition of a filter, or `none` when no value can pass it. -/
def Filter.condition (f : Filter) : Except Fault (Option Condition) := do
  let column ← ColumnName.ofField? f.field
  match f.operand with
  | .missing | .value .null =>
    return some (if f.comparison = .eq then .isNull column else .isNotNull column)
  | .value v => return some (.compare column f.comparison v.literal)
  | .list [] => return none
  | .list vs =>
    match f.comparison with
    | .eq => return some (.among column (vs.map Value.literal))
    | .ne => return some (.notAmong column (vs.map Value.literal))
    | comparison => throw (.invalid (.comparedList comparison f.field))

namespace Query

/-- The column that a result without fields still has. -/
def placeholderColumn : String := "id"

/-- The column of a number of rows. -/
def countColumn : String := "_count"

/-- The limit that stands before an offset when the query has none. -/
def unboundedLimit : Nat := UInt64.size - 1

def checkTable (q : Query) : Except Fault Unit :=
  if Text.blankOnly q.table then .error (.invalid .blankQueryTable) else .ok ()

/-- The conditions of all filters, or `none` when no row can pass them. -/
def conditions (q : Query) : Except Fault (Option (List Condition)) := do
  let found ← q.filters.mapM Filter.condition
  return found.mapM id

def columns (names : List String) : Except Fault (List String) := names.mapM ColumnName.ofField?

def projection (q : Query) : Except Fault (Option (List String)) :=
  match q.selection with
  | none => .ok none
  | some [] => .ok (some [placeholderColumn])
  | some names => some <$> columns names

def orderings (q : Query) : Except Fault (List Sql.Ordering) :=
  q.orders.mapM fun o => do
    let column ← ColumnName.ofField? o.field
    return ⟨column, o.descending⟩

/-- Zero means no limit and no offset. -/
def window (q : Query) : Sql.Window :=
  match q.limit.bind positive, q.offset.bind positive with
  | none, none => .all
  | some n, none => .first n.toNat
  | none, some k => .slice unboundedLimit k.toNat
  | some n, some k => .slice n.toNat k.toNat

/-- The window of a statement that changes rows. It cannot pass over rows. -/
def changeWindow (q : Query) : Except Fault Sql.Window :=
  match q.window with
  | .slice _ _ => .error (.invalid .offsetOutsideSelect)
  | w => .ok w

/-! ## Statements -/

def toSelect (q : Query) : Except Fault (Option Statement) := do
  q.checkTable
  match ← q.conditions with
  | none => return none
  | some conditions =>
    let projection ← q.projection
    let groups ← columns q.groups
    let orderings ← q.orderings
    return some (.select ⟨q.distinct, projection, q.table, conditions, groups, orderings, q.window⟩)

/-- Counts the rows. Order, groups, fields and window do not matter. -/
def toCount (q : Query) : Except Fault (Option Statement) := do
  q.checkTable
  match ← q.conditions with
  | none => return none
  | some conditions => return some (.count countColumn q.table conditions)

def toDelete (q : Query) : Except Fault (Option Statement) := do
  q.checkTable
  match ← q.conditions with
  | none => return none
  | some conditions =>
    let orderings ← q.orderings
    let window ← q.changeWindow
    return some (.delete q.table conditions orderings window)

/-- Sets fields of the rows, in the order of the patch. -/
def toUpdate (q : Query) (patch : Record) : Except Fault (Option Statement) := do
  q.checkTable
  if patch.isEmpty then throw (.invalid (.emptyPatch q.table))
  let assignments ← patch.fields.mapM fun (name, value) => do
    let column ← ColumnName.ofField? name
    return (column, value.literal)
  match ← q.conditions with
  | none => return none
  | some conditions =>
    let orderings ← q.orderings
    let window ← q.changeWindow
    return some (.update q.table assignments conditions orderings window)

end Query

end RowStore
