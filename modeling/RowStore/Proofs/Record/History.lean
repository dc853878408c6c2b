import Mathlib
import RowStore.Proofs.Record

/-!
# Records with a history

What a record holds after any edits, told from the edits alone. An insertion is in force until its
name is removed. Of the insertions of a name that are in force, the last has the value and the first
the place among the names.
-/

namespace RowStore.Record

/-! ## Edits -/

inductive Edit where
  /-- In place, or as a builder does it. -/
  | insert (name : String) (value : Value)
  | erase (name : String)
  | stringify
  /-- A new record of these fields. -/
  | collect (fields : List (String × Value))

def edit (r : Record) : Edit → Record
  | .insert name value => r.insert name value
  | .erase name => r.erase name
  | .stringify => r.stringify
  | .collect fields => ofList fields

def edited (edits : List Edit) : Record := edits.foldl edit empty

/-- The same on a list of fields, in which nothing but the edits keeps names apart. -/
def editFields (fields : List (String × Value)) : Edit → List (String × Value)
  | .insert name value => put name value fields
  | .erase name => fields.eraseP (·.1 == name)
  | .stringify => fields.map fun (k, v) => (k, v.stringify)
  | .collect more => more.foldl (fun fields (k, v) => put k v fields) []

/-- One step of an edit. -/
inductive Change where
  | set (name : String) (value : Value)
  | remove (name : String)
  | clear
  | stringify

namespace Change

def apply (r : Record) : Change → Record
  | set name value => r.insert name value
  | remove name => r.erase name
  | clear => empty
  | stringify => r.stringify

def Sets (c : Change) (name : String) : Prop := ∃ value, c = set name value

def Removes (c : Change) (name : String) : Prop := c = remove name ∨ c = clear

def isStringify : Change → Bool
  | stringify => true
  | _ => false

end Change

def Edit.changes : Edit → List Change
  | insert name value => [.set name value]
  | erase name => [.remove name]
  | stringify => [.stringify]
  | collect fields => .clear :: fields.map fun (k, v) => .set k v

def history (edits : List Edit) : List Change := edits.flatMap Edit.changes

/-! ## What the history tells -/

/-- The name is set at a place of the history, and not removed after it. -/
structure InForce (changes : List Change) (name : String) (i : Nat) : Prop where
  sets : ∃ value, changes[i]? = some (.set name value)
  stays : ∀ j c, i < j → changes[j]? = some c → ¬ c.Removes name

/-- What becomes of a value. -/
def settled (value : Value) (later : List Change) : Value :=
  if later.any Change.isStringify then value.stringify else value

/-- The last insertion that is in force has set the name to what has become this value. -/
def Told (changes : List Change) (name : String) (value : Value) : Prop :=
  ∃ i v, IsGreatest {i | InForce changes name i} i ∧ changes[i]? = some (.set name v) ∧
    value = settled v (changes.drop (i + 1))

/-- Of the insertions in force, the first of one name stands before the first of the other. -/
def Precedes (changes : List Change) (name other : String) : Prop :=
  ∀ i j, IsLeast {i | InForce changes name i} i → IsLeast {j | InForce changes other j} j → i < j

/-! ## One change more -/

theorem getElem?_concat_eq_some {α : Type} {l : List α} {a b : α} {i : Nat} :
    (l ++ [a])[i]? = some b ↔ l[i]? = some b ∨ i = l.length ∧ a = b := by
  rcases Nat.lt_trichotomy i l.length with h | h | h
  · rw [List.getElem?_append_left h]
    simp [h.ne]
  · subst h
    simp
  · have hlong : (l ++ [a]).length ≤ i := by
      rw [List.length_append, List.length_singleton]
      omega
    rw [List.getElem?_eq_none hlong, List.getElem?_eq_none (by omega : l.length ≤ i)]
    simp [h.ne']

variable {changes : List Change} {c : Change} {name : String} {i : Nat}

theorem InForce.lt (h : InForce changes name i) : i < changes.length := by
  obtain ⟨value, hset⟩ := h.sets
  exact (List.getElem?_eq_some_iff.mp hset).1

theorem inForce_concat :
    InForce (changes ++ [c]) name i ↔
      InForce changes name i ∧ ¬ c.Removes name ∨ i = changes.length ∧ c.Sets name := by
  constructor
  · rintro ⟨⟨value, hset⟩, hstays⟩
    rcases getElem?_concat_eq_some.mp hset with hset | ⟨hi, hc⟩
    · have hi : i < changes.length := (List.getElem?_eq_some_iff.mp hset).1
      refine Or.inl ⟨⟨⟨value, hset⟩, ?_⟩, hstays changes.length c hi (by simp)⟩
      intro j d hj hd
      exact hstays j d hj (getElem?_concat_eq_some.mpr (Or.inl hd))
    · exact Or.inr ⟨hi, value, hc⟩
  · rintro (⟨h, hc⟩ | ⟨rfl, value, rfl⟩)
    · obtain ⟨value, hset⟩ := h.sets
      refine ⟨⟨value, getElem?_concat_eq_some.mpr (Or.inl hset)⟩, ?_⟩
      intro j d hj hd
      rcases getElem?_concat_eq_some.mp hd with hd | ⟨-, rfl⟩
      · exact h.stays j d hj hd
      · exact hc
    · refine ⟨⟨value, by simp⟩, ?_⟩
      intro j d hj hd
      have hlt := (List.getElem?_eq_some_iff.mp hd).1
      simp at hlt
      omega

theorem exists_inForce_concat :
    (∃ i, InForce (changes ++ [c]) name i) ↔
      (∃ i, InForce changes name i) ∧ ¬ c.Removes name ∨ c.Sets name := by
  simp [inForce_concat, exists_or]

theorem not_inForce_of_removes (h : c.Removes name) : ¬ InForce (changes ++ [c]) name i := by
  rw [inForce_concat]
  rintro (⟨-, hc⟩ | ⟨-, value, rfl⟩)
  · exact hc h
  · simp [Change.Removes] at h

theorem inForce_concat_of_keeps (hsets : ¬ c.Sets name) (hremoves : ¬ c.Removes name) :
    InForce (changes ++ [c]) name i ↔ InForce changes name i := by
  simp [inForce_concat, hsets, hremoves]

theorem inForce_concat_set {value : Value} :
    InForce (changes ++ [.set name value]) name i ↔
      InForce changes name i ∨ i = changes.length := by
  simp [inForce_concat, Change.Removes, Change.Sets]

/-! ### Values -/

theorem settled_concat (value : Value) (later : List Change) (c : Change) :
    settled value (later ++ [c]) =
      if c.isStringify then (settled value later).stringify else settled value later := by
  unfold settled
  by_cases hc : c.isStringify <;> by_cases hl : later.any Change.isStringify <;>
    simp [hc, hl, Value.stringify_stringify]

theorem told_concat_set {value w : Value} :
    Told (changes ++ [.set name value]) name w ↔ w = value := by
  have hgreatest : IsGreatest {i | InForce (changes ++ [.set name value]) name i}
      changes.length := by
    refine ⟨inForce_concat_set.mpr (Or.inr rfl), ?_⟩
    intro i hi
    have := InForce.lt hi
    simp at this
    omega
  constructor
  · rintro ⟨i, v, hi, hset, rfl⟩
    obtain rfl := hi.unique hgreatest
    simp at hset
    simp [settled, hset]
  · rintro rfl
    exact ⟨changes.length, w, hgreatest, by simp, by simp [settled]⟩

theorem not_told_of_removes {w : Value} (h : c.Removes name) : ¬ Told (changes ++ [c]) name w := by
  rintro ⟨i, v, hi, -, -⟩
  exact not_inForce_of_removes h hi.1

theorem told_concat_of_keeps {w : Value} (hsets : ¬ c.Sets name) (hremoves : ¬ c.Removes name) :
    Told (changes ++ [c]) name w ↔
      ∃ v, Told changes name v ∧ w = if c.isStringify then v.stringify else v := by
  have hsame : {i | InForce (changes ++ [c]) name i} = {i | InForce changes name i} := by
    ext i
    exact inForce_concat_of_keeps hsets hremoves
  unfold Told
  rw [hsame]
  constructor
  · rintro ⟨i, v, hi, hset, rfl⟩
    have hlt := InForce.lt hi.1
    rw [List.getElem?_append_left hlt] at hset
    rw [List.drop_append_of_le_length (by omega), settled_concat]
    exact ⟨_, ⟨i, v, hi, hset, rfl⟩, rfl⟩
  · rintro ⟨_, ⟨i, v, hi, hset, rfl⟩, rfl⟩
    have hlt := InForce.lt hi.1
    refine ⟨i, v, hi, ?_, ?_⟩
    · rw [List.getElem?_append_left hlt, hset]
    · rw [List.drop_append_of_le_length (by omega), settled_concat]

/-! ### Places -/

theorem isLeast_of_concat (hpresent : ∃ j, InForce changes name j)
    (h : IsLeast {i | InForce (changes ++ [c]) name i} i) :
    IsLeast {i | InForce changes name i} i := by
  have hnot : ¬ c.Removes name := fun hc => not_inForce_of_removes hc h.1
  have hlower : ∀ j, InForce changes name j → i ≤ j := by
    intro j hj
    exact h.2 (inForce_concat.mpr (Or.inl ⟨hj, hnot⟩))
  rcases inForce_concat.mp h.1 with ⟨hi, -⟩ | ⟨rfl, -⟩
  · exact ⟨hi, hlower⟩
  · obtain ⟨j, hj⟩ := hpresent
    have := hj.lt
    have := hlower j hj
    omega

theorem precedes_concat {other : String} (hname : ∃ i, InForce changes name i)
    (hother : ∃ j, InForce changes other j) (h : Precedes changes name other) :
    Precedes (changes ++ [c]) name other := by
  intro i j hi hj
  exact h i j (isLeast_of_concat hname hi) (isLeast_of_concat hother hj)

theorem precedes_concat_set {other : String} {value : Value}
    (hname : ∃ i, InForce changes name i) (hother : ¬ ∃ j, InForce changes other j) :
    Precedes (changes ++ [.set other value]) name other := by
  intro i j hi hj
  have hlt := (isLeast_of_concat hname hi).1.lt
  rcases inForce_concat_set.mp hj.1 with hj | rfl
  · exact absurd ⟨j, hj⟩ hother
  · exact hlt

/-! ## Records follow their history -/

/-- A record has what its history tells. -/
structure Follows (r : Record) (changes : List Change) : Prop where
  value (name : String) (w : Value) : r.get? name = some w ↔ Told changes name w
  present (name : String) : name ∈ r.names ↔ ∃ i, InForce changes name i
  order : r.names.Pairwise (Precedes changes)

theorem follows_empty (h : ∀ name i, ¬ InForce changes name i) : Follows empty changes where
  value name w := by
    have hnone : empty.get? name = none := rfl
    rw [hnone]
    refine iff_of_false (by simp) ?_
    rintro ⟨i, v, hi, -, -⟩
    exact h name i hi.1
  present name := by
    refine iff_of_false List.not_mem_nil ?_
    rintro ⟨i, hi⟩
    exact h name i hi
  order := List.Pairwise.nil

section

variable {r : Record} (h : Follows r changes)
include h

theorem Follows.order_concat (c : Change) : r.names.Pairwise (Precedes (changes ++ [c])) := by
  refine h.order.imp_of_mem ?_
  intro a b ha hb hab
  exact precedes_concat ((h.present a).mp ha) ((h.present b).mp hb) hab

theorem follows_set (k : String) (v : Value) :
    Follows (r.insert k v) (changes ++ [.set k v]) where
  value name w := by
    rw [get?_insert]
    by_cases hname : name = k
    · subst hname
      rw [if_pos rfl, told_concat_set, Option.some.injEq, eq_comm]
    · rw [if_neg hname, h.value, told_concat_of_keeps
        (by simp [Change.Sets, Ne.symm hname]) (by simp [Change.Removes])]
      simp [Change.isStringify]
  present name := by
    rw [mem_names_insert, h.present, exists_inForce_concat]
    simp [Change.Removes, Change.Sets, @eq_comm _ name k]
  order := by
    -- A name that is there keeps its place, and a new one comes last.
    rw [names_insert]
    split
    · exact h.order_concat _
    · rename_i hk
      rw [h.present] at hk
      rw [List.pairwise_append]
      refine ⟨h.order_concat _, List.pairwise_singleton _ _, ?_⟩
      intro a ha b hb
      obtain rfl := List.mem_singleton.mp hb
      exact precedes_concat_set ((h.present a).mp ha) hk

theorem follows_remove (k : String) : Follows (r.erase k) (changes ++ [.remove k]) where
  value name w := by
    rw [get?_erase]
    by_cases hname : name = k
    · subst hname
      rw [if_pos rfl]
      exact iff_of_false (by simp) (not_told_of_removes (by simp [Change.Removes]))
    · rw [if_neg hname, h.value, told_concat_of_keeps
        (by simp [Change.Sets]) (by simp [Change.Removes, Ne.symm hname])]
      simp [Change.isStringify]
  present name := by
    rw [names_erase, List.mem_filter, h.present, exists_inForce_concat]
    simp [Change.Removes, Change.Sets, @eq_comm _ name k]
  order := by
    rw [names_erase]
    exact (h.order_concat _).filter _

theorem follows_stringify : Follows r.stringify (changes ++ [.stringify]) where
  value name w := by
    rw [get?_stringify, told_concat_of_keeps (by simp [Change.Sets]) (by simp [Change.Removes])]
    simp [Change.isStringify, ← h.value, eq_comm]
  present name := by
    rw [names_stringify, h.present, exists_inForce_concat]
    simp [Change.Removes, Change.Sets]
  order := by
    rw [names_stringify]
    exact h.order_concat _

/-- One change of the record is one change more in the history. -/
theorem follows_apply (c : Change) : Follows (c.apply r) (changes ++ [c]) := by
  cases c with
  | set k v => exact follows_set h k v
  | remove k => exact follows_remove h k
  | clear => exact follows_empty fun name i => not_inForce_of_removes (by simp [Change.Removes])
  | stringify => exact follows_stringify h

end

/-! ## Any edits -/

theorem edit_eq (r : Record) (e : Edit) : r.edit e = e.changes.foldl Change.apply r := by
  cases e with
  | insert | erase | stringify => rfl
  | collect fields =>
    unfold edit Edit.changes ofList
    rw [List.foldl_cons, List.foldl_map]
    rfl

theorem edited_eq (edits : List Edit) :
    edited edits = (history edits).foldl Change.apply empty := by
  unfold edited history
  rw [List.foldl_flatMap]
  congr 1
  funext r e
  exact edit_eq r e

theorem follows_run (changes : List Change) :
    Follows (changes.foldl Change.apply empty) changes := by
  induction changes using List.reverseRecOn with
  | nil =>
    refine follows_empty ?_
    intro name i hi
    simpa using hi.lt
  | append_singleton changes c ih =>
    rw [List.foldl_concat]
    exact follows_apply ih c

theorem eraseP_eq_filter {name : String} {fields : List (String × Value)}
    (h : (fields.map (·.1)).Nodup) :
    fields.eraseP (·.1 == name) = fields.filter (·.1 != name) := by
  induction fields with
  | nil => rfl
  | cons f rest ih =>
    obtain ⟨k, v⟩ := f
    rw [List.map_cons, List.nodup_cons] at h
    by_cases hk : k = name
    · subst hk
      have hrest : rest.filter (·.1 != k) = rest := by
        rw [List.filter_eq_self]
        rintro ⟨l, w⟩ hmem
        rw [bne_iff_ne]
        intro hl
        exact h.1 (List.mem_map.mpr ⟨(l, w), hmem, hl⟩)
      simp [hrest]
    · simp [hk, ih h.2]

theorem foldl_put (r : Record) (fields : List (String × Value)) :
    fields.foldl (fun fields (k, v) => put k v fields) r.fields =
      (fields.foldl (fun r (k, v) => r.insert k v) r).fields := by
  induction fields generalizing r with
  | nil => rfl
  | cons f rest ih => exact ih (r.insert f.1 f.2)

theorem editFields_fields (r : Record) (e : Edit) : editFields r.fields e = (r.edit e).fields := by
  cases e with
  | insert | stringify => rfl
  | erase name => exact eraseP_eq_filter r.nodup
  | collect fields => exact foldl_put empty fields

theorem foldl_editFields (r : Record) (edits : List Edit) :
    edits.foldl editFields r.fields = (edits.foldl edit r).fields := by
  induction edits generalizing r with
  | nil => rfl
  | cons e rest ih =>
    rw [List.foldl_cons, editFields_fields]
    exact ih (r.edit e)

/-- After any edits the names are distinct, although nothing but the edits keeps them apart, a name
has the value of its last insertion that was not removed, as text if it was turned into text later,
and the names stand in the order of the first insertions that were not removed. -/
theorem edited_follows (edits : List Edit) :
    edits.foldl editFields [] = (edited edits).fields ∧
    ((edits.foldl editFields []).map (·.1)).Nodup ∧
    (∀ name value, (edited edits).get? name = some value ↔ Told (history edits) name value) ∧
    (∀ name, name ∈ (edited edits).names ↔ ∃ i, InForce (history edits) name i) ∧
    (edited edits).names.Pairwise (Precedes (history edits)) := by
  have hfields : edits.foldl editFields [] = (edited edits).fields := foldl_editFields empty edits
  have hfollows : Follows (edited edits) (history edits) := by
    rw [edited_eq]
    exact follows_run _
  refine ⟨hfields, ?_, hfollows.value, hfollows.present, hfollows.order⟩
  rw [hfields]
  exact (edited edits).nodup

example :
    (edited [.collect [("a", .null), ("b", .null), ("a", .bool true)], .insert "c" .null,
      .erase "a", .insert "b" .null, .insert "a" .null]).names = ["b", "c", "a"] := by decide

end RowStore.Record
