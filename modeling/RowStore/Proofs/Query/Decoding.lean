import Mathlib
import RowStore.Proofs.Json.Decoding
import RowStore.Proofs.Record
import RowStore.Query.Reader

/-!
# Decoding queries

What the decoders of filters, orders and queries make of an object, whatever the order of its
members. A key that is left out leaves its field as it was.
-/

namespace RowStore

open Json (Decodes Fills Keyed Puts Tree)

/-! ## Filters and orders -/

namespace Filter

/-- The filter when only these keys were there. -/
def part (f : Filter) (seen : List String) : Filter where
  field := if "field" ∈ seen then f.field else ""
  comparison := if "op" ∈ seen then f.comparison else .eq
  operand := if "value" ∈ seen then f.operand else .missing

theorem decodes {f : Filter} {depth : Nat} {members : List (String × Tree)}
    (keyed : Keyed ["field", "op", "value"] members)
    (mandatory : "field" ∈ members.map (·.1) ∧ "op" ∈ members.map (·.1))
    (hfield : Fills Json.Decoder.text depth "" f.field (members.lookup "field"))
    (hcomparison : Fills Comparison.decoder depth .eq f.comparison (members.lookup "op"))
    (hoperand : Fills Operand.decoder depth .missing f.operand (members.lookup "value")) :
    Decodes Filter.decoder (depth + 1) (.object members) f := by
  have decoded : Decodes Filter.decoder (depth + 1) (.object members)
      (f.part (members.map (·.1)).reverse) := by
    refine Json.decodes_record f.part keyed.1 ?_ ?_
    · intro key t seen mem new
      have known := keyed.2 key (List.mem_map_of_mem mem)
      simp only [List.mem_cons, List.not_mem_nil, or_false] at known
      obtain rfl | rfl | rfl := known
      · exact Json.puts_field (hfield.decodes keyed.1 mem) rfl (by simp [part])
      · exact Json.puts_field (hcomparison.decodes keyed.1 mem) rfl (by simp [part])
      · exact Json.puts_field (hoperand.decodes keyed.1 mem) rfl (by simp [part])
    · simpa [Json.Decoder.Field.required, Json.Decoder.Field.defaulted] using mandatory
  rwa [part, hfield.ite_eq, hcomparison.ite_eq, hoperand.ite_eq] at decoded

end Filter

namespace Order

/-- The order when only these keys were there. -/
def part (o : Order) (seen : List String) : Order where
  field := if "field" ∈ seen then o.field else ""
  descending := if "descending" ∈ seen then o.descending else false

theorem decodes {o : Order} {depth : Nat} {members : List (String × Tree)}
    (keyed : Keyed ["field", "descending"] members) (mandatory : "field" ∈ members.map (·.1))
    (hfield : Fills Json.Decoder.text depth "" o.field (members.lookup "field"))
    (hdescending : Fills Json.Decoder.flag depth false o.descending
      (members.lookup "descending")) :
    Decodes Order.decoder (depth + 1) (.object members) o := by
  have decoded : Decodes Order.decoder (depth + 1) (.object members)
      (o.part (members.map (·.1)).reverse) := by
    refine Json.decodes_record o.part keyed.1 ?_ ?_
    · intro key t seen mem new
      have known := keyed.2 key (List.mem_map_of_mem mem)
      simp only [List.mem_cons, List.not_mem_nil, or_false] at known
      obtain rfl | rfl := known
      · exact Json.puts_field (hfield.decodes keyed.1 mem) rfl (by simp [part])
      · exact Json.puts_field (hdescending.decodes keyed.1 mem) rfl (by simp [part])
    · simpa [Json.Decoder.Field.required, Json.Decoder.Field.defaulted] using mandatory
  rwa [part, hfield.ite_eq, hdescending.ite_eq] at decoded

end Order

/-! ## Queries -/

namespace Query

/-- The names of the members of a query. -/
def keys : List String :=
  ["table", "filters", "orders", "groupBy", "selectedFields", "limit", "offset", "distinct"]

/-- The query when only these keys were there. -/
def part (q : Query) (seen : List String) : Query where
  table := if "table" ∈ seen then q.table else ""
  filters := if "filters" ∈ seen then q.filters else []
  orders := if "orders" ∈ seen then q.orders else []
  groups := if "groupBy" ∈ seen then q.groups else []
  selection := if "selectedFields" ∈ seen then q.selection else none
  limit := if "limit" ∈ seen then q.limit else none
  offset := if "offset" ∈ seen then q.offset else none
  distinct := if "distinct" ∈ seen then q.distinct else false

/-- What each key of an object, or its absence, gives the query. -/
structure Filled (q : Query) (depth : Nat) (members : List (String × Tree)) : Prop where
  keyed : Keyed keys members
  mandatory : "table" ∈ members.map (·.1)
  table : Fills Json.Decoder.text depth "" q.table (members.lookup "table")
  filters : Fills (Json.Decoder.list Filter.decoder) depth [] q.filters (members.lookup "filters")
  orders : Fills (Json.Decoder.list Order.decoder) depth [] q.orders (members.lookup "orders")
  groups : Fills (Json.Decoder.list Json.Decoder.text) depth [] q.groups (members.lookup "groupBy")
  selection : Fills (Json.Decoder.optional (Json.Decoder.list Json.Decoder.text)) depth none
    q.selection (members.lookup "selectedFields")
  limit : Fills countDecoder depth none q.limit (members.lookup "limit")
  offset : Fills countDecoder depth none q.offset (members.lookup "offset")
  distinct : Fills Json.Decoder.flag depth false q.distinct (members.lookup "distinct")

theorem decodes {q : Query} {depth : Nat} {members : List (String × Tree)}
    (filled : Filled q depth members) : Decodes decoder (depth + 1) (.object members) q := by
  have ⟨keyed, mandatory, table, filters, orders, groups, selection, limit, offset, distinct⟩ :=
    filled
  have decoded : Decodes decoder (depth + 1) (.object members)
      (q.part (members.map (·.1)).reverse) := by
    refine Json.decodes_record q.part keyed.1 ?_ ?_
    · intro key t seen mem new
      have known := keyed.2 key (List.mem_map_of_mem mem)
      simp only [keys, List.mem_cons, List.not_mem_nil, or_false] at known
      obtain rfl | rfl | rfl | rfl | rfl | rfl | rfl | rfl := known
      · exact Json.puts_field (table.decodes keyed.1 mem) rfl (by simp [part])
      · exact Json.puts_field (filters.decodes keyed.1 mem) rfl (by simp [part])
      · exact Json.puts_field (orders.decodes keyed.1 mem) rfl (by simp [part])
      · exact Json.puts_field (groups.decodes keyed.1 mem) rfl (by simp [part])
      · exact Json.puts_field (selection.decodes keyed.1 mem) rfl (by simp [part])
      · exact Json.puts_field (limit.decodes keyed.1 mem) rfl (by simp [part])
      · exact Json.puts_field (offset.decodes keyed.1 mem) rfl (by simp [part])
      · exact Json.puts_field (distinct.decodes keyed.1 mem) rfl (by simp [part])
    · simpa [fields, Json.Decoder.Field.required, Json.Decoder.Field.defaulted] using mandatory
  rwa [part, table.ite_eq, filters.ite_eq, orders.ite_eq, groups.ite_eq, selection.ite_eq,
    limit.ite_eq, offset.ite_eq, distinct.ite_eq] at decoded

end Query

end RowStore
