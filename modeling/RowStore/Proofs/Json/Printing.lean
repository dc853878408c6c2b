import Mathlib
import RowStore.Json.Printer
import RowStore.Proofs.Json.Spelling

/-!
# What is printed

`Json.text` prints a text of every tree whose numbers fit.
-/

namespace RowStore.Json

/-! ## Strings -/

theorem codeUnit_control {n : Nat} (h : n < 0x20) :
    CodeUnit n ['0', '0', Text.hexDigit (n / 16), Text.hexDigit (n % 16)] := by
  refine ⟨rfl, [0, 0, n / 16, n % 16], ?_, ?_⟩
  · revert n
    decide
  · simp only [List.foldl_cons, List.foldl_nil]
    omega

theorem spellsChar_stringChar (c : Char) : SpellsChar c (stringChar c) := by
  unfold stringChar
  split
  case h_1 | h_2 | h_3 | h_4 | h_5 | h_6 | h_7 => exact .short _ (by decide)
  case h_8 hquote hslash _ _ _ _ _ =>
    split
    case isTrue control => exact .unit _ (codeUnit_control control)
    case isFalse visible => exact .plain (Nat.not_lt.mp visible) hquote hslash

theorem spellsString_flatMap (s : String) : SpellsString s (s.toList.flatMap stringChar) := by
  refine ⟨s.toList.map stringChar, ?_, List.flatMap_def⟩
  rw [List.forall₂_map_right_iff]
  exact List.forall₂_same.mpr fun c _ => spellsChar_stringChar c

theorem toList_stringText (s : String) :
    (stringText s).toList = '\x22' :: (s.toList.flatMap stringChar ++ ['\x22']) := by
  rw [stringText, String.toList_ofList]

/-! ## Values -/

namespace Tree

mutual

/-- The value that the tree is, with its members as they stand. -/
def json : Tree → Json
  | .null => .null
  | .bool b => .bool b
  | .int n => .number (.int n)
  | .string s => .string s
  | .array items => .array (itemsJson items)
  | .object members => .object (membersJson members)

def itemsJson : List Tree → List Json
  | [] => []
  | t :: ts => t.json :: itemsJson ts

def membersJson : List (String × Tree) → List (String × Json)
  | [] => []
  | (key, t) :: ts => (key, t.json) :: membersJson ts

end

mutual

/-- All numbers of the tree fit 64 bits, with a sign or without one. -/
def Fits : Tree → Prop
  | .null | .bool _ | .string _ => True
  | .int n => -2 ^ 63 ≤ n ∧ n < 2 ^ 64
  | .array items => ItemsFit items
  | .object members => MembersFit members

def ItemsFit : List Tree → Prop
  | [] => True
  | t :: ts => t.Fits ∧ ItemsFit ts

def MembersFit : List (String × Tree) → Prop
  | [] => True
  | (_, t) :: ts => t.Fits ∧ MembersFit ts

end

theorem itemsFit_map {α : Type} {xs : List α} {f : α → Tree} (h : ∀ x, (f x).Fits) :
    ItemsFit (xs.map f) := by
  induction xs with
  | nil => trivial
  | cons x xs ih => exact ⟨h x, ih⟩

end Tree

theorem endsNumber_cons {c : Char} {rest : List Char}
    (h : Text.isAsciiDigit c = false ∧ c ≠ '.' ∧ c ≠ 'e' ∧ c ≠ 'E') : EndsNumber (c :: rest) := by
  intro d hd
  obtain rfl : c = d := by simpa using hd
  exact h

theorem endsNumber_comma (rest : List Char) : EndsNumber (',' :: rest) :=
  endsNumber_cons (by decide)

theorem SpellsItems.behind {t : Tree} {ts : List Tree} {cs rest : List Char}
    (h : SpellsItems true (t :: ts) cs rest) : SpellsItems false (t :: ts) (',' :: cs) rest := by
  obtain _ | ⟨opens, value, others⟩ := h
  obtain ⟨_, h⟩ := opens
  exact .item (.later [] _ nofun h) value others

theorem SpellsMembers.behind {m : String × Tree} {ms : List (String × Tree)} {cs rest : List Char}
    (h : SpellsMembers true (m :: ms) cs rest) :
    SpellsMembers false (m :: ms) (',' :: cs) rest := by
  obtain _ | ⟨opens, name, h, value, others⟩ := h
  obtain ⟨_, hblanks⟩ := opens
  exact .member (.later [] _ nofun hblanks) name h value others

mutual

theorem spells_text : ∀ (t : Tree) (rest : List Char), t.Fits → EndsNumber rest →
    Spells t (t.json.text.toList ++ rest) rest
  | .null, rest, _, _ => .null rest
  | .bool b, rest, _, _ => .bool b rest
  | .int n, rest, fits, ends => by
    rw [Tree.json, Json.text, Number.text, intText, String.toList_ofList]
    exact .int n rest fits.1 fits.2 ends
  | .string s, rest, _, _ => by
    rw [Tree.json, Json.text, toList_stringText, List.cons_append, List.append_assoc]
    exact .string s _ rest (spellsString_flatMap s)
  | .array items, rest, fits, _ => by
    have inside := spellsItems_texts items rest fits
    rw [Tree.json, Json.text]
    simpa using Spells.array inside
  | .object members, rest, fits, _ => by
    have inside := spellsMembers_texts members rest fits
    rw [Tree.json, Json.text]
    simpa using Spells.object inside

theorem spellsItems_texts : ∀ (ts : List Tree) (rest : List Char), Tree.ItemsFit ts →
    SpellsItems true ts ((",".intercalate (itemTexts (Tree.itemsJson ts))).toList ++ ']' :: rest)
      rest
  | [], rest, _ => .close true [] rest nofun
  | [t], rest, fits => by
    have value := spells_text t (']' :: rest) fits.1 (endsNumber_cons (by decide))
    have whole := SpellsItems.item (.first [] nofun) value (.close false [] rest nofun)
    simpa [itemTexts, Tree.itemsJson] using whole
  | t :: u :: ts, rest, fits => by
    have others := spellsItems_texts (u :: ts) rest fits.2
    have value (after : List Char) := spells_text t (',' :: after) fits.1 (endsNumber_comma after)
    have whole := SpellsItems.item (.first [] nofun) (value _) others.behind
    simpa [itemTexts, Tree.itemsJson] using whole

theorem spellsMembers_texts : ∀ (ts : List (String × Tree)) (rest : List Char),
    Tree.MembersFit ts →
    SpellsMembers true ts
      ((",".intercalate (memberTexts (Tree.membersJson ts))).toList ++ '\x7d' :: rest) rest
  | [], rest, _ => .close true [] rest nofun
  | [(key, t)], rest, fits => by
    have value := spells_text t ('\x7d' :: rest) fits.1 (endsNumber_cons (by decide))
    have whole := SpellsMembers.member (.first [] nofun) (spellsString_flatMap key)
      (nofun : Blanks []) value (.close false [] rest nofun)
    simpa [memberTexts, Tree.membersJson, toList_stringText] using whole
  | (key, t) :: m :: ts, rest, fits => by
    have others := spellsMembers_texts (m :: ts) rest fits.2
    have value (after : List Char) := spells_text t (',' :: after) fits.1 (endsNumber_comma after)
    have whole := SpellsMembers.member (.first [] nofun) (spellsString_flatMap key)
      (nofun : Blanks []) (value _) others.behind
    simpa [memberTexts, Tree.membersJson, toList_stringText] using whole

end

theorem textOf_text {t : Tree} (fits : t.Fits) : TextOf t t.json.text := by
  have spelled := spells_text t [] fits nofun
  rw [List.append_nil] at spelled
  exact ⟨[], spelled, nofun⟩

end RowStore.Json
