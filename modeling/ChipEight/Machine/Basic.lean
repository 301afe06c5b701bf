import ChipEight.Instruction.Encoding
import ChipEight.Machine.Fault
import ChipEight.Machine.Screen
import ChipEight.Random.KeyStream

/-!
# The machine

All of the machine's state, and what a front end does to it from outside:
power it on, load a program, press keys, tick the timers, take the repaint
mark, reset. Execution is in `ChipEight.Machine.Execution`.

A machine made with a seed draws the same random bytes after every reset. One
made without is given a stream from outside and goes on with it.
-/

namespace ChipEight

/-- The whole state of a machine. -/
structure Machine where
  /-- The register file. -/
  registers : Registers
  /-- The memory. -/
  memory : Memory
  /-- The screen. -/
  screen : Screen
  /-- The keypad. -/
  keypad : Keypad
  /-- Where random bytes come from. -/
  random : KeyStream
  /-- The seed whose stream a reset restarts. -/
  seed : Option UInt64
  /-- Whether the machine runs, waits or has faulted. -/
  status : Status
  /-- How many cycles succeeded since the last reset. -/
  cycles : Nat
  /-- The instruction of the last cycle that succeeded. -/
  lastInstruction : Option Instruction
deriving DecidableEq

namespace Machine

/-- A machine at power-on that draws on a stream. -/
def powerOn (random : KeyStream) (seed : Option UInt64) : Machine :=
  { registers := .powerOn, memory := .powerOn, screen := .blank, keypad := .released,
    random, seed, status := .running, cycles := 0, lastInstruction := none }

/-- A machine whose random bytes are those of a seed. -/
def ofSeed (seed : UInt64) : Machine :=
  powerOn (.ofSeed seed) (some seed)

/-- The stream that a machine draws on after a reset. -/
def resetRandom (m : Machine) : KeyStream :=
  match m.seed with
  | some seed => .ofSeed seed
  | none => m.random

/-- Back to power-on; a program has to be loaded anew. -/
def reset (m : Machine) : Machine :=
  powerOn m.resetRandom m.seed

/-- Load a program image: whether it was refused, and the machine after it. -/
def load (m : Machine) (program : List UInt8) : Except MemoryError Unit × Machine :=
  let r := m.memory.load program
  (r.1, { m with memory := r.2 })

/-- Press or release a key. -/
def setKey (m : Machine) (key : UInt8) (down : Bool) : Except NoSuchKey Machine :=
  match m.keypad.set key down with
  | .ok keypad => .ok { m with keypad }
  | .error e => .error e

/-- One tick of the timers. -/
def tick (m : Machine) : Machine :=
  { m with registers := m.registers.tick }

/-- The machine with the repaint mark taken off its screen. -/
def settle (m : Machine) : Machine :=
  { m with screen := m.screen.settle }

/-- Whether the machine has not faulted. -/
def isRunning (m : Machine) : Bool :=
  decide (m.status ≠ .faulted)

/-- Whether the machine is blocked on a key. -/
def isAwaitingKey (m : Machine) : Bool :=
  match m.status with
  | .awaitingKey _ _ => true
  | _ => false

/-- The address of the instruction that the next cycle executes; while a key wait is blocked,
that is the key wait itself. -/
def instructionAddress (m : Machine) : UInt16 :=
  match m.status with
  | .awaitingKey _ address => address
  | _ => m.registers.pc

/-- The machine in words. -/
def describe (m : Machine) : String :=
  Record.describe "Cpu" [
    ("state", m.status.describe),
    ("cycles", decimal m.cycles),
    ("regs", m.registers.describe),
    ("display", m.screen.describe)]

end Machine

end ChipEight
