import ChipEight.Machine.Keypad
import ChipEight.Machine.Registers

/-!
# Status and faults

A machine runs, waits for a key, or has faulted. Every error in a cycle is a
fault, and a fault is final. A fault names the address of the instruction, and
its word if one was fetched; only the refusal to run a faulted machine names
neither.
-/

namespace ChipEight

/-- What a machine is doing. -/
inductive Status where
  /-- It fetches and executes. -/
  | running
  /-- The key wait at `address` is blocked; the key will go into `register`. -/
  | awaitingKey (register : UInt8) (address : UInt16)
  /-- A fault stopped it for good. -/
  | faulted
deriving DecidableEq

/-- The status in words. -/
def Status.describe : Status → String
  | running => "Running"
  | awaitingKey register address =>
    Record.describe "AwaitingKey"
      [("register", decimal register.toNat), ("pc", decimal address.toNat)]
  | faulted => "Faulted"

/-- Why a cycle failed. -/
inductive Fault where
  /-- The machine had already faulted. -/
  | notRunning (status : Status)
  /-- The word is no instruction. -/
  | invalidOpcode (address : UInt16) (word : Word)
  /-- A call with a full stack. -/
  | stackOverflow (address : UInt16) (word : Word)
  /-- A return with an empty stack. -/
  | stackUnderflow (address : UInt16) (word : Word)
  /-- An access to memory was refused. -/
  | memory (address : UInt16) (word : Word) (cause : MemoryError)
  /-- A register that should name a key does not. -/
  | invalidKey (address : UInt16) (word : Word) (key : UInt8)
  /-- The instruction itself lies outside memory. -/
  | fetch (address : UInt16) (cause : MemoryError)
deriving DecidableEq

namespace Fault

/-- The fault of an instruction whose use of the call stack was refused. -/
def ofStack (address : UInt16) (word : Word) : StackError → Fault
  | .overflow => stackOverflow address word
  | .underflow => stackUnderflow address word

/-- The address of the instruction that failed. -/
def address? : Fault → Option UInt16
  | notRunning _ => none
  | invalidOpcode a _ | stackOverflow a _ | stackUnderflow a _ | memory a _ _ | invalidKey a _ _
  | fetch a _ => some a

/-- The word of the instruction that failed, if it was fetched. -/
def word? : Fault → Option Word
  | notRunning _ | fetch _ _ => none
  | invalidOpcode _ w | stackOverflow _ w | stackUnderflow _ w | memory _ w _
  | invalidKey _ w _ => some w

/-- The place of a fault: the address, and the word in parentheses. -/
def place (address : UInt16) (word : Word) : String :=
  " at " ++ Hex.address address.toNat ++ " (" ++ word.text ++ ")"

/-- The fault in words. -/
def message : Fault → String
  | notRunning status => "CPU not running: " ++ status.describe
  | invalidOpcode a w => "invalid opcode " ++ w.text ++ " at " ++ Hex.address a.toNat
  | stackOverflow a w => "call stack overflow" ++ place a w
  | stackUnderflow a w => StackError.underflow.message ++ place a w
  | memory a w cause => cause.message ++ place a w
  | invalidKey a w key => "key " ++ Hex.nibble key.toNat ++ " out of range" ++ place a w
  | fetch a cause => "instruction fetch failed at " ++ Hex.address a.toNat ++ ": " ++ cause.message

end Fault

end ChipEight
