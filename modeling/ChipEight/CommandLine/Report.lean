import ChipEight.Console
import ChipEight.Json
import ChipEight.Machine.Report
import ChipEight.Text

/-!
# Reports of a run

What is printed about a run without a keyboard: a first line, the trace if it
is asked for, the result in text or as JSON, the screen if it is asked for,
and on the error stream the fault that ended the run.
-/

namespace ChipEight.CommandLine

/-- A text with a line end. -/
def line (text : String) : String :=
  text ++ "\n"

/-- The line above a run. -/
def opening (path : String) (image : List UInt8) : String :=
  line ("🔧 Running: " ++ path ++ " (" ++ decimal image.length ++ " bytes)")

/-- The trace below its heading. -/
def traceReport (lines : List String) : String :=
  "\n" ++ line "━━━ Execution ━━━" ++ String.join (lines.map line)

/-- A row of registers, the first being register `first`. -/
def registerLine (first : Nat) (values : List UInt8) : String :=
  String.intercalate " " (values.zipIdx.map fun p =>
    "V" ++ Hex.upper 1 (first + p.2) ++ "=" ++ Hex.upper 2 p.1.toNat)

/-- The final state below its heading. -/
def result (c : Console) : String :=
  let m := c.machine
  let r := m.registers
  "\n" ++ line "━━━ Result ━━━" ++
    line ("Frames: " ++ decimal c.frames) ++
    line ("Cycles: " ++ decimal m.cycles) ++
    line ("State: " ++ m.status.describe) ++
    line ("PC: " ++ Hex.address r.pc.toNat ++ "  I: " ++ Hex.address r.i.toNat ++
      "  SP: " ++ decimal r.stack.depth) ++
    String.join ((chunks 8 r.v.toList).zipIdx.map fun p =>
      line (registerLine (p.2 * 8) p.1)) ++
    line ("DT: " ++ decimal r.delay.toNat ++ "  ST: " ++ decimal r.sound.toNat)

/-- A note that the run stopped for want of a key. -/
def waitNote : Ending → String
  | .blocked => "\n" ++ line "⏸  Program is waiting for a key press; stopping."
  | _ => ""

/-- The final state as JSON. -/
def snapshot (c : Console) : String :=
  line c.machine.toJson.pretty

/-- The final screen. -/
def screenReport (c : Console) : String :=
  "\n" ++ c.machine.screen.text

/-- What is said of a fault: the fault, then the instruction if it was fetched. -/
def faultReport (e : Fault) : String :=
  line ("❌ CPU fault: " ++ e.message) ++
    match e.address?, e.word? with
    | some a, some w => line ("   " ++ Hex.address a.toNat ++ ": " ++ w.text ++ "  " ++ w.assembly)
    | _, _ => ""

end ChipEight.CommandLine
