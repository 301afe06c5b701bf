import ChipEight.Instruction.Assembly
import ChipEight.Json
import ChipEight.Machine.Execution

/-!
# What is told of a machine

A trace has a line for each cycle that succeeded: the address of the
instruction and its assembly text. A blocked key wait is traced at its own
address each time it is tried again.

As JSON there are a full report of the registers, dead stack slots included, and
a snapshot of the machine: registers, status, cycles and the last instruction.
An instruction without operands is its name; one with operands is an object with
its name as the only member.
-/

namespace ChipEight

/-! ## Traces -/

namespace Machine

/-- The line of one cycle. -/
def traceLine (address : UInt16) (i : Instruction) : String :=
  Hex.address address.toNat ++ ": " ++ i.assembly

/-- Run for `n` cycles, or up to the first fault, and trace them. -/
def trace (m : Machine) (n : Nat) : List String × Option Fault × Machine :=
  let r := runWith (fun address i lines => traceLine address i :: lines) n [] m
  (r.1.reverse, r.2)

end Machine

/-! ## JSON -/

/-- An instruction as JSON. -/
def Instruction.toJson (i : Instruction) : Json :=
  match i.record with
  | (name, []) => .plain name
  | (name, fields) => .record [(name, .record (fields.map fun f => (f.1, .ofNat f.2)))]

/-- The status as JSON. -/
def Status.toJson : Status → Json
  | running => .plain "Running"
  | awaitingKey register address =>
    .record [("AwaitingKey",
      .record [("register", .ofNat register.toNat), ("pc", .ofNat address.toNat)])]
  | faulted => .plain "Faulted"

/-- The register file as JSON. -/
def Registers.toJson (r : Registers) : Json :=
  .record [
    ("v", .array (r.v.toList.map fun b => .ofNat b.toNat)),
    ("i", .ofNat r.i.toNat),
    ("pc", .ofNat r.pc.toNat),
    ("stack", .array (r.stack.slots.toList.map fun a => .ofNat a.toNat)),
    ("sp", .ofNat r.stack.depth),
    ("delay_timer", .ofNat r.delay.toNat),
    ("sound_timer", .ofNat r.sound.toNat)]

/-- A snapshot of the machine. -/
def Machine.toJson (m : Machine) : Json :=
  .record [
    ("regs", m.registers.toJson),
    ("state", m.status.toJson),
    ("cycles", .ofNat m.cycles),
    ("last_instruction", match m.lastInstruction with
      | some i => i.toJson
      | none => .null)]

end ChipEight
