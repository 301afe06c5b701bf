import ChipEight.Player.Session
import ChipEight.View.Layout
import ChipEight.View.Tables

/-!
# The dashboard

What a session looks like on a terminal. On the left the screen and the status
line; with the debugger shown, on the right the registers, the code around the
current instruction, the memory that `I` points at, and the keypad.

The screen box takes 66 columns and 18 rows, which is the screen and its border,
and the status box 3 rows. With the debugger shown, the right column gets the
other columns, and the code the rows that the boxes around it leave: 10 are for
the registers, 6 for memory and 7 for the keypad. How the cells of a terminal
are divided is a parameter (`dashboardBy`), since no more is asked of it than
that.
-/

namespace ChipEight.View

/-- The box with the screen. A note in the title tells that the tone plays. -/
def screenBox (s : Session) (width height : Nat) : Picture :=
  let m := s.console.machine
  let title := if m.registers.sounding then " Chip-8 ♪ " else " Chip-8 "
  Picture.box width height (.color .cyan) (.color .green) title
    ((screenLines m.screen).map (Row.ofText (.color .green)))

/-- The box with the status line; it is red if the machine has halted. -/
def statusBox (s : Session) (width height : Nat) : Picture :=
  let style := Style.color (if s.halted then .red else .white)
  Picture.box width height style style " Status " [Row.ofText style s.status]

/-- The row of registers whose values are given, the first being register `first`. -/
def registerRow (first : Nat) (values : List UInt8) : Row :=
  Row.ofText .plain (String.join (values.zipIdx.map fun p =>
    "V" ++ Hex.upper 1 (first + p.2) ++ "=" ++ Hex.upper 2 p.1.toNat ++ "  "))

/-- The colour of a status. -/
def statusColor : Status → Color
  | .running => .green
  | .awaitingKey _ _ => .yellow
  | .faulted => .red

/-- The rows that show the registers. -/
def registerRows (m : Machine) : List Row :=
  let r := m.registers
  ((chunks 4 r.v.toList).zipIdx.map fun p => registerRow (p.2 * 4) p.1) ++ [
    Row.ofText .plain "PC: " ++
      Row.ofText (.color .yellow) (Hex.address r.pc.toNat) ++
      Row.ofText .plain "   I: " ++
      Row.ofText (.color .white) (Hex.address r.i.toNat) ++
      Row.ofText .plain ("   SP: " ++ decimal r.stack.depth),
    Row.ofText .plain ("DT: " ++ decimalRight 3 r.delay.toNat ++ "   ST: " ++
      decimalRight 3 r.sound.toNat ++ "   Cycles: " ++ decimal m.cycles),
    Row.ofText .plain ("Stack: [" ++
      String.intercalate " " (r.stack.live.map fun a => Hex.upper 3 a.toNat) ++ "]"),
    Row.ofText .plain "State: " ++
      Row.ofText (.color (statusColor m.status)) m.status.describe]

/-- The box with the registers. -/
def registersBox (s : Session) (width height : Nat) : Picture :=
  Picture.box width height (.color .green) .plain " Registers " (registerRows s.console.machine)

/-- A row of code. The current one is marked, and stands out over the whole width. -/
def codeRow (width : Nat) (r : Session.CodeRow) : Row :=
  let text := Hex.address r.address ++ ": " ++ r.text
  if r.current then
    let style : Style := ⟨.yellow, .plain, true⟩
    Row.fit width style (Row.ofText style ("▶ " ++ text))
  else Row.ofText .plain ("  " ++ text)

/-- The box with the code around the current instruction. -/
def codeBox (s : Session) (width height : Nat) : Picture :=
  Picture.box width height (.color .magenta) .plain " Disassembly "
    ((s.disassembly (height - 2)).map (codeRow (width - 2)))

/-- The box with the memory that `I` points at. -/
def memoryBox (s : Session) (width height : Nat) : Picture :=
  let m := s.console.machine
  Picture.box width height (.color .blue) .plain " Memory @ I "
    ((memoryLines m.memory m.registers.i (UInt64.ofNat (height - 2))).map (Row.ofText .plain))

/-- The cell of a key; a key that is down stands out. -/
def keyCell (cell : String × Bool) : Row :=
  Row.ofText (if cell.2 then ⟨.black, .yellow, false⟩ else .color .darkGray) (cell.1 ++ " ")

/-- The box with the keypad and a reminder of the commands. -/
def keypadBox (s : Session) (width height : Nat) : Picture :=
  Picture.box width height .plain .plain " Keypad "
    ((keypadCells s.console.machine.keypad).map (fun row => row.flatMap keyCell) ++
      [Row.ofText (.color .darkGray) "Space: Pause  n: Step  x: Reset  Tab: Panel  q: Quit"])

/-- The left column: the screen, the status line, and blanks below them. -/
def leftParts (s : Session) : List (Constraint × Panel) := [
  (.exactly (Screen.height / 2 + 2), screenBox s),
  (.exactly 3, statusBox s),
  (.atLeast 0, Picture.blank)]

/-- The right column: the boxes of the debugger. -/
def rightParts (s : Session) : List (Constraint × Panel) := [
  (.exactly 10, registersBox s),
  (.atLeast 6, codeBox s),
  (.exactly 6, memoryBox s),
  (.exactly 7, keypadBox s)]

/-- The columns that are shown. -/
def columns (divide : Divider) (s : Session) : List (Constraint × Panel) :=
  let left := stacked divide (leftParts s)
  if s.showDebug then
    [(.exactly (Screen.width + 2), left), (.atLeast 30, stacked divide (rightParts s))]
  else [(.atLeast (Screen.width + 2), left)]

/-- A session on a terminal whose cells are divided in some way. -/
def dashboardBy (divide : Divider) (s : Session) : Panel :=
  abreast divide (columns divide s)

/-- A session on a terminal of a size. -/
def dashboard (s : Session) (width height : Nat) : Picture :=
  dashboardBy .greedy s width height

end ChipEight.View
