import ChipEight.Json

/-!
# The grammar of JSON

Which texts spell a value. The grammar knows nothing of tokens, of open containers or of
the order in which a text is read: it puts larger texts together from smaller ones.
Blanks may stand around every value and every mark.

A value keeps its numbers and strings as they are written, so one value is spelled by
texts that differ in their blanks alone. `Proper` says which values can be written at all.
-/

namespace ChipEight.Json

/-- The characters that may stand around values and marks. -/
def Blank (c : Char) : Prop :=
  c = ' ' ∨ c = '\t' ∨ c = '\n' ∨ c = '\r'

/-- A run of blanks, or nothing. -/
def Blanks (cs : List Char) : Prop :=
  ∀ c ∈ cs, Blank c

/-- A run of at least one digit. -/
def Digits (ds : List Char) : Prop :=
  ds ≠ [] ∧ ∀ c ∈ ds, c.isDigit = true

/-- The whole part of a number. -/
inductive Whole : List Char → Prop where
  | zero : Whole ['0']
  /-- No number but zero starts with a zero. -/
  | digits {ds : List Char} : Digits ds → ds.head? ≠ some '0' → Whole ds

/-- The fraction of a number, if there is one. -/
inductive Fraction : List Char → Prop where
  | absent : Fraction []
  | present {ds : List Char} : Digits ds → Fraction ('.' :: ds)

/-- The exponent of a number, if there is one. -/
inductive Exponent : List Char → Prop where
  | absent : Exponent []
  | present {mark : Char} {sign ds : List Char} : mark = 'e' ∨ mark = 'E' →
      sign = [] ∨ sign = ['+'] ∨ sign = ['-'] → Digits ds → Exponent (mark :: (sign ++ ds))

/-- The text of a number. -/
inductive NumberText : List Char → Prop where
  | mk {sign whole fraction exponent : List Char} : sign = [] ∨ sign = ['-'] →
      Whole whole → Fraction fraction → Exponent exponent →
      NumberText (sign ++ (whole ++ (fraction ++ exponent)))

/-- A hexadecimal digit. -/
def HexDigit (c : Char) : Prop :=
  ('0' ≤ c ∧ c ≤ '9') ∨ ('a' ≤ c ∧ c ≤ 'f') ∨ ('A' ≤ c ∧ c ≤ 'F')

/-- What may stand between the quotes of a string. -/
inductive Body : List Char → Prop where
  | nil : Body []
  | plain {c : Char} {cs : List Char} : c ≠ '"' → c ≠ '\\' → ' ' ≤ c → Body cs → Body (c :: cs)
  | escape {c : Char} {cs : List Char} : c ∈ ['"', '\\', '/', 'b', 'f', 'n', 'r', 't'] →
      Body cs → Body ('\\' :: c :: cs)
  | unit {a b c d : Char} {cs : List Char} : HexDigit a → HexDigit b → HexDigit c → HexDigit d →
      Body cs → Body ('\\' :: 'u' :: a :: b :: c :: d :: cs)

mutual

/-- `Spells v cs`: the characters spell the value. -/
inductive Spells : Json → List Char → Prop where
  | null : Spells .null ['n', 'u', 'l', 'l']
  | true : Spells (.bool .true) ['t', 'r', 'u', 'e']
  | false : Spells (.bool .false) ['f', 'a', 'l', 's', 'e']
  | number {cs : List Char} : NumberText cs → Spells (.number cs) cs
  | string {cs : List Char} : Body cs → Spells (.string cs) ('"' :: (cs ++ ['"']))
  | emptyArray {cs : List Char} : Blanks cs → Spells (.array []) ('[' :: (cs ++ [']']))
  | array {items : List Json} {cs : List Char} : SpellsItems items cs →
      Spells (.array items) ('[' :: (cs ++ [']']))
  | emptyObject {cs : List Char} : Blanks cs → Spells (.object []) ('\x7b' :: (cs ++ ['\x7d']))
  | object {members : List (List Char × Json)} {cs : List Char} : SpellsMembers members cs →
      Spells (.object members) ('\x7b' :: (cs ++ ['\x7d']))
  | blankBefore {v : Json} {c : Char} {cs : List Char} : Blank c → Spells v cs →
      Spells v (c :: cs)
  | blankAfter {v : Json} {c : Char} {cs : List Char} : Spells v cs → Blank c →
      Spells v (cs ++ [c])

/-- The characters spell the items of an array that is not empty, without its marks. -/
inductive SpellsItems : List Json → List Char → Prop where
  | last {v : Json} {cs : List Char} : Spells v cs → SpellsItems [v] cs
  | cons {v : Json} {items : List Json} {cs ds : List Char} : Spells v cs →
      SpellsItems items ds → SpellsItems (v :: items) (cs ++ ',' :: ds)

/-- The characters spell the members of an object that is not empty, without its marks. -/
inductive SpellsMembers : List (List Char × Json) → List Char → Prop where
  | last {key before between cs : List Char} {v : Json} : Blanks before → Body key →
      Blanks between → Spells v cs →
      SpellsMembers [(key, v)] (before ++ '"' :: (key ++ '"' :: (between ++ ':' :: cs)))
  | cons {key before between cs ds : List Char} {v : Json} {members : List (List Char × Json)} :
      Blanks before → Body key → Blanks between → Spells v cs → SpellsMembers members ds →
      SpellsMembers ((key, v) :: members)
        (before ++ '"' :: (key ++ '"' :: (between ++ ':' :: (cs ++ ',' :: ds))))

end

/-- The value can be written: its numbers and strings, and the names in it, are in order. -/
inductive Proper : Json → Prop where
  | null : Proper .null
  | bool (b : Bool) : Proper (.bool b)
  | number {cs : List Char} : NumberText cs → Proper (.number cs)
  | string {cs : List Char} : Body cs → Proper (.string cs)
  | array {items : List Json} : (∀ v ∈ items, Proper v) → Proper (.array items)
  | object {members : List (List Char × Json)} : (∀ m ∈ members, Body m.1) →
      (∀ m ∈ members, Proper m.2) → Proper (.object members)

theorem Spells.blanksBefore {v : Json} {before cs : List Char} (hbefore : Blanks before)
    (h : Spells v cs) : Spells v (before ++ cs) := by
  induction before with
  | nil => exact h
  | cons c before ih =>
      obtain ⟨hc, hrest⟩ := List.forall_mem_cons.mp hbefore
      exact .blankBefore hc (ih hrest)

theorem Spells.blanksAfter {v : Json} {cs after : List Char} (h : Spells v cs)
    (hafter : Blanks after) : Spells v (cs ++ after) := by
  induction after generalizing cs with
  | nil =>
      rw [List.append_nil]
      exact h
  | cons c after ih =>
      obtain ⟨hc, hrest⟩ := List.forall_mem_cons.mp hafter
      rw [List.append_cons]
      exact ih (h.blankAfter hc) hrest

end ChipEight.Json
