import RowStore.Value

/-!
# Records

A row as a flat map from field names to values that remembers the order of its fields. Statements
list columns in this order.
-/

namespace RowStore

/-- Fields in order, each name once. -/
structure Record where
  fields : List (String × Value)
  nodup : (fields.map (·.1)).Nodup

namespace Record

def empty : Record := ⟨[], List.nodup_nil⟩

def names (r : Record) : List String := r.fields.map (·.1)

def size (r : Record) : Nat := r.fields.length

def isEmpty (r : Record) : Bool := r.fields.isEmpty

def get? (r : Record) (name : String) : Option Value := r.fields.lookup name

/-! ## Adding and removing fields -/

/-- Replaces the value of the first field called `name`, or adds the field at the end. -/
def put (name : String) (value : Value) : List (String × Value) → List (String × Value)
  | [] => [(name, value)]
  | (k, v) :: rest => if k = name then (k, value) :: rest else (k, v) :: put name value rest

theorem names_put (name : String) (value : Value) (fields : List (String × Value)) :
    (put name value fields).map (·.1) =
      if name ∈ fields.map (·.1) then fields.map (·.1) else fields.map (·.1) ++ [name] := by
  induction fields with
  | nil => simp [put]
  | cons f rest ih =>
    obtain ⟨k, v⟩ := f
    by_cases h : k = name
    · simp [put, h]
    · have h' : name ≠ k := fun e => h e.symm
      simp only [put, h, if_false, List.map_cons, ih, List.mem_cons, h', false_or]
      split <;> simp

def insert (r : Record) (name : String) (value : Value) : Record where
  fields := put name value r.fields
  nodup := by
    rw [names_put]
    split
    · exact r.nodup
    · rename_i h
      exact List.nodup_append.2 ⟨r.nodup, by simp, fun a ha b hb => by
        simp only [List.mem_singleton] at hb
        subst hb
        exact fun e => h (e ▸ ha)⟩

def erase (r : Record) (name : String) : Record where
  fields := r.fields.filter (·.1 != name)
  nodup := r.nodup.sublist (List.filter_sublist.map _)

def mapValues (f : Value → Value) (r : Record) : Record where
  fields := r.fields.map fun (k, v) => (k, f v)
  nodup := by simpa [List.map_map, Function.comp_def] using r.nodup

def ofList (fields : List (String × Value)) : Record :=
  fields.foldl (fun r (k, v) => r.insert k v) empty

/-- Structured values become text, so that the record can be stored. -/
def stringify (r : Record) : Record := r.mapValues Value.stringify

def equals (r s : Record) : Bool :=
  r.size == s.size &&
    (r.fields.zip s.fields).all fun ((k, v), (l, w)) => k == l && v.equals w

end Record

end RowStore
