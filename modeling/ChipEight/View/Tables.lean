import ChipEight.Player.Session

/-!
# What the boxes hold

Three parts of a machine as lines and cells.

The screen is shown in half blocks: two rows of pixels take one line of text,
where a character is a full block, an upper half, a lower half or a blank, as
its two pixels are lit or not.

Memory is shown in rows of eight bytes, each with the address of its first byte.
A dump around an address starts with the row that the address lies in, and it
ends where memory ends.

The sixteen keys are shown in their four rows, each labelled with its number and
the character of the keyboard that stands for it, and whether it is down.
-/

namespace ChipEight.View

/-! ## The screen -/

/-- The character that shows one pixel above another. -/
def halfBlock (upper lower : Bool) : Char :=
  match upper, lower with
  | true, true => '█'
  | true, false => '▀'
  | false, true => '▄'
  | false, false => ' '

/-- The line that shows pixel rows `2 * r` and `2 * r + 1`. -/
def screenLine (s : Screen) (r : Nat) : String :=
  String.ofList ((List.range Screen.width).map fun x =>
    halfBlock (s.pixel x (2 * r)) (s.pixel x (2 * r + 1)))

/-- The lines that show a screen. -/
def screenLines (s : Screen) : List String :=
  (List.range (Screen.height / 2)).map (screenLine s)

/-! ## Memory -/

/-- The text of a row: the address of its first byte, then its bytes. -/
def dumpRow (address : Nat) (bytes : List UInt8) : String :=
  Hex.upper 3 address ++ ": " ++
    String.intercalate " " (bytes.map fun b => Hex.upper 2 b.toNat)

/-- The text of a row of addresses with their bytes. -/
def dumpLine : List (Nat × UInt8) → String
  | [] => ""
  | (address, b) :: rest => dumpRow address (b :: rest.map (·.2))

/-- At most `rows` rows of memory, from the row of an address on. The number of their bytes is a word
of 64 bits, as the number of rows is, and wraps. -/
def memoryLines (m : Memory) (addr : UInt16) (rows : UInt64) : List String :=
  (chunks 8 (m.dump (addr.toUInt64 / 8 * 8) (rows * 8))).map dumpLine

/-! ## The keypad -/

/-- The keys as they lie on the keypad, top row first. -/
def keypadRows : List (List UInt8) := [
  [0x1, 0x2, 0x3, 0xC],
  [0x4, 0x5, 0x6, 0xD],
  [0x7, 0x8, 0x9, 0xE],
  [0xA, 0x0, 0xB, 0xF]]

/-- The label of a key. -/
def keyLabel (key : UInt8) : String :=
  Hex.upper 1 key.toNat ++ "[" ++ String.singleton ((Keyboard.char? key).getD '?') ++ "]"

/-- The rows of labels, each with whether its key is down. -/
def keypadCells (k : Keypad) : List (List (String × Bool)) :=
  keypadRows.map fun row => row.map fun key => (keyLabel key, k.isDown key.toNat)

end ChipEight.View
