import Mathlib
import RowStore.Proofs.Json.Printing
import RowStore.Proofs.Query.Decoding
import RowStore.Proofs.Query.Tokens

/-!
# Queries built and queries described

A query can be built call by call, or described by a JSON object. A description of the calls is read
as a query that has the same statements as the one that is built, in spite of what the two keep
differently: a limit of zero, and an operand that is null or missing.
-/

namespace RowStore

open Json (Decodes Fills Keyed TextOf Tree mem_names_of_lookup)

/-! ## Operands -/

/-- A value that JSON has as well. -/
inductive Scalar where
  | null
  | bool (b : Bool)
  | int (n : Int64)
  | text (s : String)

namespace Scalar

def value : Scalar → Value
  | null => .null
  | bool b => .bool b
  | int n => .int n
  | text s => .text s

def tree : Scalar → Tree
  | null => .null
  | bool b => .bool b
  | int n => .int n.toInt
  | text s => .string s

end Scalar

/-- The right-hand side of a filter. -/
inductive Term where
  | absent
  | scalar (s : Scalar)
  | list (ss : List Scalar)

namespace Term

def operand : Term → Operand
  | absent => .missing
  | scalar s => .value s.value
  | list ss => .list (ss.map Scalar.value)

/-- The member of a filter that tells its operand, if it has one. -/
def ToldBy : Term → Option Tree → Prop
  | .absent, m | .scalar .null, m => m = none ∨ m = some .null
  | .scalar s, m => m = some s.tree
  | .list ss, m => m = some (.array (ss.map Scalar.tree))

end Term

/-! ## Building -/

/-- A call that refines a query. -/
inductive Refinement where
  | filter (field : String) (comparison : Comparison) (term : Term)
  | order (field : String) (descending : Bool)
  | groupBy (fields : List String)
  | select (fields : List String)
  | limit (n : UInt64)
  | offset (n : UInt64)
  | distinct (b : Bool)

namespace Refinement

def filter? : Refinement → Option (String × Comparison × Term)
  | .filter field comparison term => some (field, comparison, term)
  | _ => none

def order? : Refinement → Option Order
  | .order field descending => some ⟨field, descending⟩
  | _ => none

def groups : Refinement → List String
  | .groupBy fields => fields
  | _ => []

def select? : Refinement → Option (List String)
  | .select fields => some fields
  | _ => none

def limit? : Refinement → Option UInt64
  | .limit n => some n
  | _ => none

def offset? : Refinement → Option UInt64
  | .offset n => some n
  | _ => none

def distinct? : Refinement → Option Bool
  | .distinct b => some b
  | _ => none

end Refinement

/-- The filter of a call. -/
def filterOf (f : String × Comparison × Term) : Filter := ⟨f.1, f.2.1, f.2.2.operand⟩

/-- The last call of a kind is the one that counts. -/
def lastOf {α : Type} (part : Refinement → Option α) (calls : List Refinement) : Option α :=
  (calls.filterMap part).getLast?

namespace Query

def call (q : Query) : Refinement → Query
  | .filter field comparison term => q.filter field comparison term.operand
  | .order field descending => q.order field descending
  | .groupBy fields => q.groupBy fields
  | .select fields => q.select fields
  | .limit n => q.withLimit n
  | .offset n => q.withOffset n
  | .distinct b => q.withDistinct b

def build (table : String) (calls : List Refinement) : Query := calls.foldl call (ofTable table)

theorem build_eq (table : String) (calls : List Refinement) : build table calls =
    { table := table
      filters := (calls.filterMap Refinement.filter?).map filterOf
      orders := calls.filterMap Refinement.order?
      groups := calls.flatMap Refinement.groups
      selection := lastOf Refinement.select? calls
      limit := positive ((lastOf Refinement.limit? calls).getD 0)
      offset := positive ((lastOf Refinement.offset? calls).getD 0)
      distinct := (lastOf Refinement.distinct? calls).getD false } := by
  -- from the end, since a call may undo what one before it did
  induction calls using List.reverseRecOn with
  | nil => rfl
  | append_singleton calls c ih =>
    rw [build, List.foldl_append, List.foldl_cons, List.foldl_nil, ← build, ih]
    cases c <;>
      simp [call, lastOf, filter, order, groupBy, select, withLimit, withOffset, withDistinct,
        filterOf, Refinement.filter?, Refinement.order?, Refinement.groups, Refinement.select?,
        Refinement.limit?, Refinement.offset?, Refinement.distinct?]

/-! ## What statements depend on -/

/-- Two queries that differ only in what makes no difference to their statements. -/
structure Agree (p q : Query) : Prop where
  table : p.table = q.table
  filters : p.filters.map Filter.condition = q.filters.map Filter.condition
  orders : p.orders = q.orders
  groups : p.groups = q.groups
  selection : p.selection = q.selection
  limit : p.limit.bind positive = q.limit.bind positive
  offset : p.offset.bind positive = q.offset.bind positive
  distinct : p.distinct = q.distinct

theorem conditions_eq (q : Query) : q.conditions =
    (do let found ← (q.filters.map Filter.condition).mapM id; return found.mapM id) := by
  rw [conditions, List.mapM_map]
  rfl

theorem Agree.statement_eq {p q : Query} (h : Agree p q) (use : Use) :
    p.statement use = q.statement use := by
  have ⟨htable, hfilters, horders, hgroups, hselection, hlimit, hoffset, hdistinct⟩ := h
  have hcheck : p.checkTable = q.checkTable := by rw [checkTable, checkTable, htable]
  have hconditions : p.conditions = q.conditions := by rw [conditions_eq, conditions_eq, hfilters]
  have hprojection : p.projection = q.projection := by rw [projection, projection, hselection]
  have horderings : p.orderings = q.orderings := by rw [orderings, orderings, horders]
  have hwindow : p.window = q.window := by rw [window, window, hlimit, hoffset]
  have hchange : p.changeWindow = q.changeWindow := by rw [changeWindow, changeWindow, hwindow]
  cases use with
  | select =>
    simp only [statement, toSelect, htable, hcheck, hconditions, hprojection, horderings, hgroups,
      hwindow, hdistinct]
  | count => simp only [statement, toCount, htable, hcheck, hconditions]
  | delete => simp only [statement, toDelete, htable, hcheck, hconditions, horderings, hchange]
  | update patch =>
    simp only [statement, toUpdate, htable, hcheck, hconditions, horderings, hchange]

end Query

/-! ## Describing -/

/-- The spellings of a comparison. There may be blanks around them. -/
def Comparison.spellings : Comparison → List String
  | .eq => ["=", "=="]
  | .ne => ["!=", "<>"]
  | .gt => [">"]
  | .ge => [">="]
  | .lt => ["<"]
  | .le => ["<="]

/-- A list that may be left out when it is empty. -/
def ListTold {α : Type} (told : α → Tree → Prop) (xs : List α) (m : Option Tree) : Prop :=
  (xs = [] ∧ m = none) ∨ ∃ ts, m = some (.array ts) ∧ List.Forall₂ told xs ts

def NameTold (name : String) (t : Tree) : Prop := t = .string name

/-- A filter as an object. -/
def FilterTold (f : String × Comparison × Term) (t : Tree) : Prop :=
  ∃ members, t = .object members ∧ Keyed ["field", "op", "value"] members ∧
    members.lookup "field" = some (.string f.1) ∧
    (∃ op, members.lookup "op" = some (.string op) ∧ Text.trim op ∈ f.2.1.spellings) ∧
    f.2.2.ToldBy (members.lookup "value")

/-- A flag that may be left out when it is not set. -/
def FlagTold (b : Bool) (m : Option Tree) : Prop := m = some (.bool b) ∨ (b = false ∧ m = none)

/-- An order as an object. -/
def OrderTold (o : Order) (t : Tree) : Prop :=
  ∃ members, t = .object members ∧ Keyed ["field", "descending"] members ∧
    members.lookup "field" = some (.string o.field) ∧
    FlagTold o.descending (members.lookup "descending")

/-- The fields to return. Without any choice the key is left out or null. -/
def SelectionTold (selection : Option (List String)) (m : Option Tree) : Prop :=
  match selection with
  | none => m = none ∨ m = some .null
  | some names => m = some (.array (names.map Tree.string))

/-- A limit or an offset. Zero may be left out or null. -/
def CountTold (n : UInt64) (m : Option Tree) : Prop :=
  m = some (.int n.toNat) ∨ (n = 0 ∧ (m = none ∨ m = some .null))

/-- The members of an object, in any order, that tell the calls which build a query. -/
structure Described (table : String) (calls : List Refinement) (members : List (String × Tree)) :
    Prop where
  keyed : Keyed Query.keys members
  table : members.lookup "table" = some (.string table)
  filters : ListTold FilterTold (calls.filterMap Refinement.filter?) (members.lookup "filters")
  orders : ListTold OrderTold (calls.filterMap Refinement.order?) (members.lookup "orders")
  groups : ListTold NameTold (calls.flatMap Refinement.groups) (members.lookup "groupBy")
  selection : SelectionTold (lastOf Refinement.select? calls) (members.lookup "selectedFields")
  limit : CountTold ((lastOf Refinement.limit? calls).getD 0) (members.lookup "limit")
  offset : CountTold ((lastOf Refinement.offset? calls).getD 0) (members.lookup "offset")
  distinct : FlagTold ((lastOf Refinement.distinct? calls).getD false) (members.lookup "distinct")

/-! ## A description for all calls -/

/-- The operand as a member of its filter. An absent operand is null. -/
def Term.tree : Term → Tree
  | absent => .null
  | scalar s => s.tree
  | list ss => .array (ss.map Scalar.tree)

theorem Term.toldBy_tree (term : Term) : term.ToldBy (some term.tree) := by
  cases term with
  | absent => exact .inr rfl
  | list => rfl
  | scalar s =>
    cases s with
    | null => exact .inr rfl
    | bool | int | text => rfl

def filterTree (f : String × Comparison × Term) : Tree :=
  .object [("field", .string f.1), ("op", .string f.2.1.text), ("value", f.2.2.tree)]

theorem filterTold_filterTree (f : String × Comparison × Term) : FilterTold f (filterTree f) := by
  refine ⟨_, rfl, ⟨by simp, by simp⟩, rfl, ⟨_, rfl, ?_⟩, f.2.2.toldBy_tree⟩
  cases f.2.1 <;> decide

def orderTree (o : Order) : Tree :=
  .object [("field", .string o.field), ("descending", .bool o.descending)]

theorem orderTold_orderTree (o : Order) : OrderTold o (orderTree o) :=
  ⟨_, rfl, ⟨by simp, by simp⟩, rfl, .inl rfl⟩

def selectionTree : Option (List String) → Tree
  | none => .null
  | some names => .array (names.map Tree.string)

/-- Every member in full. -/
def describe (table : String) (calls : List Refinement) : List (String × Tree) :=
  [("table", .string table),
    ("filters", .array ((calls.filterMap Refinement.filter?).map filterTree)),
    ("orders", .array ((calls.filterMap Refinement.order?).map orderTree)),
    ("groupBy", .array ((calls.flatMap Refinement.groups).map Tree.string)),
    ("selectedFields", selectionTree (lastOf Refinement.select? calls)),
    ("limit", .int ((lastOf Refinement.limit? calls).getD 0).toNat),
    ("offset", .int ((lastOf Refinement.offset? calls).getD 0).toNat),
    ("distinct", .bool ((lastOf Refinement.distinct? calls).getD false))]

theorem listTold_map {α : Type} {told : α → Tree → Prop} {f : α → Tree} (xs : List α)
    (h : ∀ x, told x (f x)) : ListTold told xs (some (.array (xs.map f))) := by
  refine .inr ⟨_, rfl, ?_⟩
  rw [List.forall₂_map_right_iff]
  exact List.forall₂_same.mpr fun x _ => h x

theorem selectionTold_selectionTree (selection : Option (List String)) :
    SelectionTold selection (some (selectionTree selection)) := by
  cases selection with
  | none => exact .inr rfl
  | some names => rfl

theorem described_describe (table : String) (calls : List Refinement) :
    Described table calls (describe table calls) where
  keyed := ⟨by simp [describe], by simp [describe, Query.keys]⟩
  table := rfl
  filters := listTold_map _ filterTold_filterTree
  orders := listTold_map _ orderTold_orderTree
  groups := listTold_map _ fun _ => rfl
  selection := selectionTold_selectionTree _
  limit := .inl rfl
  offset := .inl rfl
  distinct := .inl rfl

theorem Scalar.fits_tree (s : Scalar) : s.tree.Fits := by
  cases s with
  | null | bool | text => trivial
  | int n => exact ⟨n.minValue_le_toInt, by have := n.toInt_lt; omega⟩

theorem Term.fits_tree (term : Term) : term.tree.Fits := by
  cases term with
  | absent => trivial
  | scalar s => exact s.fits_tree
  | list ss => exact Tree.itemsFit_map Scalar.fits_tree

theorem fits_selectionTree (selection : Option (List String)) : (selectionTree selection).Fits := by
  cases selection with
  | none => trivial
  | some names => exact Tree.itemsFit_map fun _ => trivial

theorem fits_count (n : UInt64) : (Tree.int n.toNat).Fits := by
  have := n.toNat_lt
  refine ⟨by omega, by omega⟩

theorem fits_describe (table : String) (calls : List Refinement) :
    (Tree.object (describe table calls)).Fits := by
  refine ⟨trivial, Tree.itemsFit_map fun f => ⟨trivial, trivial, f.2.2.fits_tree, trivial⟩,
    Tree.itemsFit_map fun _ => ⟨trivial, trivial, trivial⟩, Tree.itemsFit_map fun _ => trivial,
    fits_selectionTree _, fits_count _, fits_count _, trivial, trivial⟩

/-- Whatever the calls are, a text describes them. -/
theorem exists_described (table : String) (calls : List Refinement) :
    ∃ members text, Described table calls members ∧ TextOf (.object members) text :=
  ⟨_, _, described_describe table calls, Json.textOf_text (fits_describe table calls)⟩

/-! ## Reading descriptions -/

namespace Scalar

def json : Scalar → Json
  | null => .null
  | bool b => .bool b
  | int n => .number (.int n.toInt)
  | text s => .string s

theorem decodes (s : Scalar) : Decodes Json.Decoder.json 0 s.tree s.json := by
  cases s with
  | null => exact .json_null
  | bool b => exact .json_bool b
  | int n => exact .json_int n.toInt
  | text s => exact .json_string s

theorem ofJson_json (s : Scalar) : Value.ofJson s.json = s.value := by
  cases s with
  | null | bool | text => rfl
  | int n =>
    rw [json, Value.ofJson, if_pos ⟨n.minValue_le_toInt, n.toInt_le⟩, Int64.ofInt_toInt]
    rfl

end Scalar

theorem Comparison.read_of_spelling {c : Comparison} {op : String}
    (h : Text.trim op ∈ c.spellings) : Comparison.read op = .ok c := by
  rw [Comparison.read]
  cases c with
  | eq | ne =>
    obtain h | h : _ ∨ _ := by simpa [spellings] using h
    all_goals
      rw [h]
      rfl
  | gt | ge | lt | le =>
    obtain h : Text.trim op = _ := by simpa [spellings] using h
    rw [h]
    rfl

theorem Comparison.decodes {c : Comparison} {op : String} (h : Text.trim op ∈ c.spellings) :
    Decodes Comparison.decoder 0 (.string op) c := by
  refine .map (.text op) ?_
  rw [read_of_spelling h]

namespace Operand

theorem decodes_null : Decodes Operand.decoder 1 .null .missing :=
  (Decodes.map (f := fun j => .ok (ofJson j)) .json_null rfl).mono (Nat.zero_le 1)

theorem fills_missing {m : Option Tree} (h : m = none ∨ m = some .null) :
    Fills Operand.decoder 1 .missing .missing m := by
  obtain rfl | rfl := h
  · rfl
  · exact decodes_null

theorem decodes_scalar {s : Scalar} (h : s ≠ .null) :
    Decodes Operand.decoder 1 s.tree (.value s.value) := by
  refine (Decodes.map s.decodes ?_).mono (Nat.zero_le 1)
  rw [← s.ofJson_json]
  cases s with
  | null => exact absurd rfl h
  | bool | int | text => rfl

theorem decodes_list (ss : List Scalar) :
    Decodes Operand.decoder 1 (.array (ss.map Scalar.tree)) (.list (ss.map Scalar.value)) := by
  have items : List.Forall₂ (Decodes Json.Decoder.json 0) (ss.map Scalar.tree)
      (ss.map Scalar.json) := by
    rw [List.forall₂_map_left_iff, List.forall₂_map_right_iff]
    exact List.forall₂_same.mpr fun s _ => s.decodes
  refine .map (.json_array items) ?_
  rw [Operand.ofJson, List.map_map]
  exact congrArg (fun vs => Except.ok (list vs)) (List.map_congr_left fun s _ => s.ofJson_json)

end Operand

theorem Term.exists_operand {term : Term} {m : Option Tree} (h : term.ToldBy m) :
    ∃ operand, Fills Operand.decoder 1 .missing operand m ∧ ∀ field comparison,
      (⟨field, comparison, operand⟩ : Filter).condition =
        (⟨field, comparison, term.operand⟩ : Filter).condition := by
  cases term with
  | absent => exact ⟨.missing, Operand.fills_missing h, fun _ _ => rfl⟩
  | list ss =>
    obtain rfl : m = _ := h
    exact ⟨_, Operand.decodes_list ss, fun _ _ => rfl⟩
  | scalar s =>
    cases s with
    | null => exact ⟨.missing, Operand.fills_missing h, fun _ _ => rfl⟩
    | bool | int | text =>
      obtain rfl : m = _ := h
      exact ⟨_, Operand.decodes_scalar nofun, fun _ _ => rfl⟩

section

variable {depth : Nat}

theorem ListTold.fills {α : Type} {told : α → Tree → Prop} {inner : Json.Decoder α} {xs : List α}
    {m : Option Tree} (h : ListTold told xs m) (item : ∀ x t, told x t → Decodes inner depth t x) :
    Fills (Json.Decoder.list inner) (depth + 1) [] xs m := by
  obtain ⟨rfl, rfl⟩ | ⟨ts, rfl, items⟩ := h
  · rfl
  · exact .list (items.imp item).flip

theorem FlagTold.fills {b : Bool} {m : Option Tree} (h : FlagTold b m) :
    Fills Json.Decoder.flag depth false b m := by
  obtain rfl | ⟨rfl, rfl⟩ := h
  · exact (Decodes.flag b).mono (Nat.zero_le depth)
  · rfl

theorem NameTold.decodes {name : String} {t : Tree} (h : NameTold name t) :
    Decodes Json.Decoder.text depth t name := by
  obtain rfl : t = _ := h
  exact (Decodes.text name).mono (Nat.zero_le depth)

theorem FilterTold.exists_filter {f : String × Comparison × Term} {t : Tree}
    (h : FilterTold f t) : ∃ read : Filter, Decodes Filter.decoder 2 t read ∧
      read.condition = (filterOf f).condition := by
  obtain ⟨members, rfl, keyed, hfield, ⟨op, hop, spelled⟩, hoperand⟩ := h
  obtain ⟨operand, fills, same⟩ := Term.exists_operand hoperand
  refine ⟨⟨f.1, f.2.1, operand⟩, ?_, same _ _⟩
  refine Filter.decodes keyed ⟨mem_names_of_lookup hfield, mem_names_of_lookup hop⟩ ?_ ?_ fills
  · rw [hfield]
    exact NameTold.decodes rfl
  · rw [hop]
    exact (Comparison.decodes spelled).mono (Nat.zero_le 1)

/-- The filters that are read need not be the ones that are told, but their conditions are. -/
theorem ListTold.exists_filters {fs : List (String × Comparison × Term)} {m : Option Tree}
    (h : ListTold FilterTold fs m) :
    ∃ filters, Fills (Json.Decoder.list Filter.decoder) 3 [] filters m ∧
      filters.map Filter.condition = (fs.map filterOf).map Filter.condition := by
  obtain ⟨rfl, rfl⟩ | ⟨ts, rfl, items⟩ := h
  · exact ⟨[], rfl, rfl⟩
  · have read : ∃ filters, List.Forall₂ (Decodes Filter.decoder 2) ts filters ∧
        filters.map Filter.condition = (fs.map filterOf).map Filter.condition := by
      induction items with
      | nil => exact ⟨[], .nil, rfl⟩
      | cons first _ ih =>
        obtain ⟨f, decoded, hf⟩ := first.exists_filter
        obtain ⟨filters, others, hfilters⟩ := ih
        refine ⟨f :: filters, .cons decoded others, ?_⟩
        simp only [List.map_cons, hf, hfilters]
    obtain ⟨filters, decoded, same⟩ := read
    exact ⟨filters, .list decoded, same⟩

theorem OrderTold.decodes {o : Order} {t : Tree} (h : OrderTold o t) :
    Decodes Order.decoder (depth + 1) t o := by
  obtain ⟨members, rfl, keyed, hfield, hdescending⟩ := h
  refine Order.decodes keyed (mem_names_of_lookup hfield) ?_ hdescending.fills
  rw [hfield]
  exact NameTold.decodes rfl

theorem SelectionTold.fills {selection : Option (List String)} {m : Option Tree}
    (h : SelectionTold selection m) :
    Fills (Json.Decoder.optional (Json.Decoder.list Json.Decoder.text)) (depth + 1) none selection
      m := by
  cases selection with
  | none =>
    obtain rfl | rfl := h
    · rfl
    · exact Decodes.none.mono (Nat.zero_le _)
  | some names =>
    obtain rfl : m = _ := h
    refine .some (.list ?_) nofun
    rw [List.forall₂_map_left_iff]
    exact List.forall₂_same.mpr fun name _ => NameTold.decodes rfl

theorem CountTold.exists_count {n : UInt64} {m : Option Tree} (h : CountTold n m) :
    ∃ read, Fills Query.countDecoder depth none read m ∧
      read.bind Query.positive = (Query.positive n).bind Query.positive := by
  obtain rfl | ⟨rfl, rfl | rfl⟩ := h
  · refine ⟨some n, ?_, ?_⟩
    · have word : Decodes (Json.Decoder.word 64) 0 (.int n.toNat) n.toNat := .unsigned _ n.toNat_lt
      have decoded : Decodes Query.countDecoder 0 (.int n.toNat) (some (.ofNat n.toNat)) :=
        .map (.some word nofun) rfl
      rw [UInt64.ofNat_toNat] at decoded
      exact decoded.mono (Nat.zero_le depth)
    · rw [Option.bind_some]
      unfold Query.positive
      split <;> simp [*]
  · exact ⟨none, rfl, rfl⟩
  · have decoded : Decodes Query.countDecoder 0 .null none := .map .none rfl
    exact ⟨none, decoded.mono (Nat.zero_le depth), rfl⟩

end

theorem Described.exists_query {table : String} {calls : List Refinement}
    {members : List (String × Tree)} (described : Described table calls members) :
    ∃ q, Decodes Query.decoder 4 (.object members) q ∧ q.Agree (Query.build table calls) := by
  have ⟨keyed, htable, hfilters, horders, hgroups, hselection, hlimit, hoffset, hdistinct⟩ :=
    described
  obtain ⟨filters, fillsFilters, same⟩ := hfilters.exists_filters
  obtain ⟨limit, fillsLimit, sameLimit⟩ := hlimit.exists_count
  obtain ⟨offset, fillsOffset, sameOffset⟩ := hoffset.exists_count
  refine ⟨⟨table, filters, calls.filterMap Refinement.order?, calls.flatMap Refinement.groups,
    lastOf Refinement.select? calls, limit, offset, (lastOf Refinement.distinct? calls).getD false⟩,
    Query.decodes ⟨keyed, mem_names_of_lookup htable, ?_, fillsFilters,
      horders.fills fun _ _ => OrderTold.decodes, hgroups.fills fun _ _ => NameTold.decodes,
      hselection.fills, fillsLimit, fillsOffset, hdistinct.fills⟩, ?_⟩
  · rw [htable]
    exact NameTold.decodes rfl
  · rw [Query.build_eq]
    exact ⟨rfl, same, rfl, rfl, rfl, sameLimit, sameOffset, rfl⟩

/-- A description of the calls is read, and the query that it gives has the statements of the query
that the calls build. -/
theorem ofJsonText_described {table : String} {calls : List Refinement}
    {members : List (String × Tree)} {text : String} (described : Described table calls members)
    (spelled : TextOf (.object members) text) :
    ∃ q, Query.ofJsonText text = .ok q ∧
      ∀ use, q.statement use = (Query.build table calls).statement use := by
  obtain ⟨q, decoded, agree⟩ := described.exists_query
  refine ⟨q, ?_, agree.statement_eq⟩
  rw [Query.ofJsonText, decoded.run (by decide) spelled]

/-- The keys stand in an order of their own, and most of them are left out. -/
theorem ofJsonText_described_permuted :
    ∃ q, Query.ofJsonText ("\x7b\"limit\":null,\"filters\":[" ++
        "\x7b\"op\":\" <> \",\"field\":\"a\"\x7d],\"table\":\"t\"\x7d") = .ok q ∧
      ∀ use, q.statement use = (Query.build "t"
        [.limit 5, .filter "a" .ne (.scalar .null), .limit 0]).statement use := by
  have described : Described "t" [.limit 5, .filter "a" .ne (.scalar .null), .limit 0]
      [("limit", .null),
        ("filters", .array [.object [("op", .string " <> "), ("field", .string "a")]]),
        ("table", .string "t")] :=
    { keyed := ⟨by decide, by decide⟩
      table := rfl
      filters := .inr ⟨_, rfl, .cons ⟨_, rfl, ⟨by decide, by decide⟩, rfl,
        ⟨" <> ", rfl, by decide⟩, .inl rfl⟩ .nil⟩
      orders := .inl ⟨rfl, rfl⟩
      groups := .inl ⟨rfl, rfl⟩
      selection := .inl rfl
      limit := .inr ⟨rfl, .inr rfl⟩
      offset := .inr ⟨rfl, .inl rfl⟩
      distinct := .inr ⟨rfl, rfl⟩ }
  exact ofJsonText_described described
    (Json.textOf_text (by simp [Tree.Fits, Tree.ItemsFit, Tree.MembersFit]))

end RowStore
