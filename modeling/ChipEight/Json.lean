import ChipEight.Text

/-!
# JSON values and their texts

A value as it is spelled: a number keeps its literal, and a string keeps the
characters between its quotes, escapes unresolved, since an escape may name
half of a surrogate pair and so no character. `unescape?` gives the text that
a spelling stands for, if it stands for one. The members of an object keep
their order, and a name may occur twice; what that means is for the reader of
the value to say.

Values are printed over several lines: each item and each member on a line of
its own, two blanks deeper than the container around it. Empty containers stay
on one line.
-/

namespace ChipEight

/-- A JSON value. -/
inductive Json where
  /-- `null`. -/
  | null
  /-- A truth value. -/
  | bool (b : Bool)
  /-- A number with its literal. -/
  | number (literal : List Char)
  /-- A string with the characters between its quotes. -/
  | string (body : List Char)
  /-- An array. -/
  | array (items : List Json)
  /-- An object; each name is spelled as a string is. -/
  | object (members : List (List Char × Json))

namespace Json

/-- A natural number. -/
def ofNat (n : Nat) : Json :=
  number (Nat.toDigits 10 n)

/-- A number written with digits alone and below a limit. -/
def natural? (limit : Nat) : Json → Option Nat
  | number literal => decimalBelow? limit literal
  | _ => none

/-- A text without quotes, backslashes and control characters, which is its own spelling. -/
def plain (s : String) : Json :=
  string s.toList

/-- An object whose names are their own spelling. -/
def record (fields : List (String × Json)) : Json :=
  object (fields.map fun f => (f.1.toList, f.2))

/-- The value of four hexadecimal digits. -/
def hexUnit? (a b c d : Char) : Option Nat := do
  let a ← Hex.digit? a
  let b ← Hex.digit? b
  let c ← Hex.digit? c
  let d ← Hex.digit? d
  return ((a * 16 + b) * 16 + c) * 16 + d

/-- The character that a one-letter escape stands for. -/
def escaped? : Char → Option Char
  | '"' => some '"'
  | '\\' => some '\\'
  | '/' => some '/'
  | 'b' => some '\x08'
  | 'f' => some '\x0c'
  | 'n' => some '\n'
  | 'r' => some '\r'
  | 't' => some '\t'
  | _ => none

/-- The characters that a spelling stands for. A leading surrogate has to be followed by a
trailing one, and no trailing one may stand alone. -/
def unescape? : List Char → Option (List Char)
  | '\\' :: 'u' :: a :: b :: c :: d :: rest => do
    let u ← hexUnit? a b c d
    if 0xD800 ≤ u ∧ u < 0xDC00 then
      match rest with
      | '\\' :: 'u' :: a' :: b' :: c' :: d' :: rest => do
        let t ← hexUnit? a' b' c' d'
        if 0xDC00 ≤ t ∧ t < 0xE000 then
          let s ← unescape? rest
          return Char.ofNat (0x10000 + (u - 0xD800) * 0x400 + (t - 0xDC00)) :: s
        else none
      | _ => none
    else if 0xDC00 ≤ u ∧ u < 0xE000 then none
    else
      let s ← unescape? rest
      return Char.ofNat u :: s
  | '\\' :: c :: rest => do
    let e ← escaped? c
    let s ← unescape? rest
    return e :: s
  | '\\' :: [] => none
  | c :: rest => do
    let s ← unescape? rest
    return c :: s
  | [] => some []

/-- The value of a member of an object, if exactly one member has the name. -/
def member? (name : String) : Json → Option Json
  | object members =>
    match members.filter fun m => unescape? m.1 = some name.toList with
    | [m] => some m.2
    | _ => none
  | _ => none

/-! ## Printing -/

/-- A string in quotes. -/
def quoted (body : List Char) : String :=
  "\"" ++ String.ofList body ++ "\""

/-- A new line at a depth. -/
def newline (depth : Nat) : String :=
  "\n" ++ String.ofList (List.replicate (2 * depth) ' ')

/-- A container: its marks around the texts of what it holds. -/
def container (opening closing : String) (depth : Nat) : List String → String
  | [] => opening ++ closing
  | texts =>
    opening ++ newline (depth + 1) ++ String.intercalate ("," ++ newline (depth + 1)) texts ++
      newline depth ++ closing

mutual

/-- The text of a value that starts at a depth. -/
def prettyAt (depth : Nat) : Json → String
  | null => "null"
  | bool b => if b then "true" else "false"
  | number literal => String.ofList literal
  | string body => quoted body
  | array items => container "[" "]" depth (prettyItems (depth + 1) items)
  | object members => container "\x7b" "\x7d" depth (prettyMembers (depth + 1) members)

/-- The texts of the items of an array. -/
def prettyItems (depth : Nat) : List Json → List String
  | [] => []
  | v :: rest => prettyAt depth v :: prettyItems depth rest

/-- The texts of the members of an object. -/
def prettyMembers (depth : Nat) : List (List Char × Json) → List String
  | [] => []
  | (k, v) :: rest => (quoted k ++ ": " ++ prettyAt depth v) :: prettyMembers depth rest

end

/-- The text of a value. -/
def pretty (v : Json) : String :=
  prettyAt 0 v

end Json

end ChipEight
