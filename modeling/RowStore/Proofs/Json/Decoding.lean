import Mathlib
import RowStore.Json.Decoder
import RowStore.Proofs.Checks
import RowStore.Proofs.Json.Reading
import RowStore.Proofs.Record

/-!
# Decoders on trees

What a decoder makes of a tree, wherever the tree stands in a text. For each decoder there is one
lemma, so that the meaning of a description is put together as its decoder is.
-/

namespace RowStore.Json

/-- The decoder makes `v` of the tree when lists and objects may still nest that deep. -/
def Decodes {α : Type} (decoder : Decoder α) (depth : Nat) (t : Tree) (v : α) : Prop :=
  ∀ budget d, depth < budget → Says d t → decoder budget d = .ok v

namespace Decodes

variable {α β : Type} {inner : Decoder α} {depth : Nat} {t : Tree} {v : α}

theorem mono {more : Nat} (h : Decodes inner depth t v) (le : depth ≤ more) :
    Decodes inner more t v :=
  fun budget d room said => h budget d (lt_of_le_of_lt le room) said

/-! ## Single values -/

theorem text (s : String) : Decodes Decoder.text 0 (.string s) s := by
  rintro budget _ - ⟨⟩
  rfl

theorem flag (b : Bool) : Decodes Decoder.flag 0 (.bool b) b := by
  rintro budget _ - ⟨⟩
  rfl

theorem unsigned (name : String) {limit n : Nat} (h : n < limit) :
    Decodes (Decoder.unsigned name limit) 0 (.int n) n := by
  rintro budget _ - ⟨⟩
  next x rest hx =>
  have hrange : (0 : Int) ≤ n ∧ (n : Int) < limit := ⟨Int.natCast_nonneg n, Int.ofNat_lt.mpr h⟩
  simp only [Decoder.unsigned, hx, Checks.ok_bind, if_pos hrange]
  rfl

theorem none : Decodes (Decoder.optional inner) 0 .null none := by
  rintro budget _ - ⟨⟩
  rfl

theorem some (h : Decodes inner depth t v) (value : t ≠ .null) :
    Decodes (Decoder.optional inner) depth t (some v) := by
  intro budget d room said
  have hd := h budget d room said
  cases said with
  | null => exact absurd rfl value
  | bool | int | string | array | object => simp only [Decoder.optional, hd]; rfl

theorem map {f : α → Except Problem β} {w : β} (h : Decodes inner depth t v) (made : f v = .ok w) :
    Decodes (Decoder.map f inner) depth t w := by
  intro budget d room said
  rw [Decoder.map, h budget d room said, Checks.ok_bind, made]

/-! ## Lists -/

theorem enter {budget depth : Nat} (room : depth + 1 < budget) :
    Document.enter budget = .ok (budget - 1) ∧ depth < budget - 1 :=
  ⟨if_pos (by omega), by omega⟩

theorem mapM {items : List Document} {ts : List Tree} {vs : List α} {budget : Nat}
    (h : List.Forall₂ (Decodes inner depth) ts vs) (room : depth < budget)
    (said : SaysItems items ts) : items.mapM (inner budget) = .ok vs := by
  rw [Checks.mapM_eq_ok]
  induction h generalizing items with
  | nil =>
    cases said
    exact .nil
  | cons value _ ih =>
    cases said with
    | cons first others => exact .cons (value budget _ room first) (ih others)

theorem list {ts : List Tree} {vs : List α} (h : List.Forall₂ (Decodes inner depth) ts vs) :
    Decodes (Decoder.list inner) (depth + 1) (.array ts) vs := by
  rintro budget _ room ⟨⟩
  next start items said =>
  obtain ⟨hinner, room⟩ := enter room
  simp only [Decoder.list, hinner, Checks.ok_bind, mapM h room said]
  rfl

/-! ## Values of any shape -/

theorem json_null : Decodes Decoder.json 0 .null .null := by
  rintro budget _ - ⟨⟩
  rfl

theorem json_bool (b : Bool) : Decodes Decoder.json 0 (.bool b) (.bool b) := by
  rintro budget _ - ⟨⟩
  rfl

theorem json_int (n : Int) : Decodes Decoder.json 0 (.int n) (.number (.int n)) := by
  rintro budget _ - ⟨⟩
  next x rest hx =>
  simp only [Decoder.json, Document.toJson, hx]
  rfl

theorem json_string (s : String) : Decodes Decoder.json 0 (.string s) (.string s) := by
  rintro budget _ - ⟨⟩
  rfl

theorem toJson {v : Json} {budget : Nat} {d : Document} (h : Decodes Decoder.json depth t v)
    (room : depth < budget) (said : Says d t) : d.toJson ofText budget = .ok v := by
  have hd := h budget d room said
  unfold Decoder.json at hd
  cases hjson : d.toJson ofText budget with
  | ok w =>
    rw [hjson] at hd
    exact congrArg Except.ok (Except.ok.inj hd)
  | error stop =>
    rw [hjson] at hd
    cases hd

theorem itemsToJson {items : List Document} {ts : List Tree} {vs : List Json} {budget : Nat}
    (h : List.Forall₂ (Decodes Decoder.json depth) ts vs) (room : depth < budget)
    (said : SaysItems items ts) : Document.itemsToJson ofText budget items = .ok vs := by
  induction h generalizing items with
  | nil =>
    cases said
    rfl
  | cons value _ ih =>
    cases said with
    | cons first others =>
      rw [Document.itemsToJson, toJson value room first, Checks.ok_bind, ih others]
      rfl

theorem json_array {ts : List Tree} {vs : List Json}
    (h : List.Forall₂ (Decodes Decoder.json depth) ts vs) :
    Decodes Decoder.json (depth + 1) (.array ts) (.array vs) := by
  rintro budget _ room ⟨⟩
  next start items said =>
  obtain ⟨hinner, room⟩ := enter room
  have hjson : (Document.array start items Option.none).toJson ofText budget = .ok (.array vs) := by
    rw [Document.toJson, hinner]
    change (Document.itemsToJson ofText (budget - 1) items >>= _) = _
    rw [itemsToJson h room said]
    rfl
  rw [Decoder.json, hjson]
  rfl

end Decodes

/-! ## Records -/

section

variable {σ : Type} {name : String} {fields : List (Decoder.Field σ)} {depth : Nat}

/-- The field under this key puts `after` into the place of `before`, whatever document says the
tree. -/
def Puts (fields : List (Decoder.Field σ)) (depth : Nat) (key : String) (t : Tree)
    (before after : σ) : Prop :=
  ∃ f, fields.find? (·.key == key) = some f ∧
    ∀ budget d, depth < budget → Says d t → f.decode budget d before = .ok after

theorem member_eq {key : String} {t : Tree} {d : Document} {budget : Nat} {before after : σ}
    {seen : List String} (puts : Puts fields depth key t before after) (room : depth < budget)
    (said : Says d t) (new : key ∉ seen) :
    Decoder.member fields budget (before, seen) (.ok key, d) = .ok (after, key :: seen) := by
  obtain ⟨f, hfind, hdecode⟩ := puts
  have hnew : seen.contains key = false := by simpa using new
  rw [Decoder.member]
  dsimp only [Except.mapError]
  rw [Checks.ok_bind, hfind]
  simp only [hnew, Bool.false_eq_true, if_false]
  rw [hdecode budget d room said]
  rfl

/-- Members with different known keys fill their fields one after the other. `state` is the record
when these keys were there. -/
theorem members_eq {members : List (Quoted × Document)} {ts : List (String × Tree)} {budget : Nat}
    (state : List String → σ) {seen : List String} (said : SaysMembers members ts)
    (room : depth < budget) (nodup : (ts.map (·.1)).Nodup)
    (fresh : ∀ key ∈ ts.map (·.1), key ∉ seen)
    (step : ∀ key t seen, (key, t) ∈ ts → key ∉ seen →
      Puts fields depth key t (state seen) (state (key :: seen))) :
    members.foldlM (Decoder.member fields budget) (state seen, seen) =
      .ok (state ((ts.map (·.1)).reverse ++ seen), (ts.map (·.1)).reverse ++ seen) := by
  induction ts generalizing members seen with
  | nil =>
    cases said
    rfl
  | cons entry ts ih =>
    cases said with
    | @cons d t ds _ key value others =>
      rw [List.map_cons, List.nodup_cons] at nodup
      have new : key ∉ seen := fresh key List.mem_cons_self
      have first := step key t seen List.mem_cons_self new
      rw [List.foldlM_cons, member_eq first room value new, Checks.ok_bind, ih others nodup.2]
      · simp
      · intro other hother hseen
        obtain rfl | hseen := List.mem_cons.mp hseen
        · exact nodup.1 hother
        · exact fresh other (List.mem_cons_of_mem _ hother) hseen
      · exact fun key t seen hmem => step key t seen (List.mem_cons_of_mem _ hmem)

theorem decodes_record {ts : List (String × Tree)} (state : List String → σ)
    (nodup : (ts.map (·.1)).Nodup)
    (step : ∀ key t seen, (key, t) ∈ ts → key ∉ seen →
      Puts fields depth key t (state seen) (state (key :: seen)))
    (complete : ∀ f ∈ fields, f.mandatory = true → f.key ∈ ts.map (·.1)) :
    Decodes (Decoder.record name fields (state [])) (depth + 1) (.object ts)
      (state (ts.map (·.1)).reverse) := by
  rintro budget _ room ⟨⟩
  next start members said =>
  obtain ⟨hinner, room⟩ := Decodes.enter room
  have hmembers := members_eq state said room nodup (fun _ _ => List.not_mem_nil) step
  have hcomplete : fields.find? (fun f =>
      f.mandatory && !(ts.map fun entry => entry.1).reverse.contains f.key) = none := by
    simpa using complete
  rw [List.append_nil] at hmembers
  simp only [Decoder.record, hinner, Checks.ok_bind, hmembers]
  rw [Ending.finish]
  dsimp only [Ending.reading, Except.mapError]
  rw [Checks.ok_bind, hcomplete]
  rfl

theorem puts_field {α : Type} {inner : Decoder α} {put : α → σ → σ} {key : String} {t : Tree}
    {v : α} {before after : σ} {mandatory : Bool} (h : Decodes inner depth t v)
    (found : fields.find? (·.key == key) =
      some ⟨key, mandatory, fun budget d s => (put · s) <$> inner budget d⟩)
    (made : put v before = after) : Puts fields depth key t before after := by
  refine ⟨_, found, fun budget d room said => ?_⟩
  simp only [h budget d room said, ← made]
  rfl

end

/-! ## Members of an object -/

/-- The value of a field whose key has this value in the object, or is left out. -/
def Fills {α : Type} (inner : Decoder α) (depth : Nat) (start v : α) : Option Tree → Prop
  | none => v = start
  | some t => Decodes inner depth t v

/-- Different keys, all of them known. -/
def Keyed (keys : List String) (members : List (String × Tree)) : Prop :=
  (members.map (·.1)).Nodup ∧ ∀ key ∈ members.map (·.1), key ∈ keys

section

variable {α : Type} {inner : Decoder α} {depth : Nat} {start v : α} {key : String} {t : Tree}
  {members : List (String × Tree)}

theorem mem_names_of_lookup (h : members.lookup key = some t) : key ∈ members.map (·.1) := by
  by_contra missing
  rw [lookup_eq_none_of_notMem missing] at h
  contradiction

theorem Fills.decodes (h : Fills inner depth start v (members.lookup key))
    (nodup : (members.map (·.1)).Nodup) (mem : (key, t) ∈ members) : Decodes inner depth t v := by
  rw [(lookup_eq_some_iff_mem nodup key t).mpr mem] at h
  exact h

theorem Fills.ite_eq (h : Fills inner depth start v (members.lookup key)) :
    (if key ∈ (members.map (·.1)).reverse then v else start) = v := by
  split
  case isTrue => rfl
  case isFalse missing =>
    rw [List.mem_reverse] at missing
    rw [lookup_eq_none_of_notMem missing] at h
    exact h.symm

end

/-! ## Texts -/

theorem Decodes.run {α : Type} {decoder : Decoder α} {depth : Nat} {t : Tree} {v : α}
    {text : String} (h : Decodes decoder depth t v) (room : depth < Document.nestingBudget)
    (spelled : TextOf t text) :
    decoder.run text = .ok v := by
  obtain ⟨d, blanks, hread, said, hblanks⟩ := spelled.reads
  rw [Decoder.run, decodeText, hread]
  change (decoder Document.nestingBudget d >>= _) = _
  rw [h _ d room said, Checks.ok_bind, hblanks]
  rfl

end RowStore.Json
