import ChipEight.Instruction.Basic
import ChipEight.Json

/-!
# Reading instructions

An instruction is read from JSON in the form in which reports show it. An
instruction without operands is its name, or an object with `null` under its
name; one with operands is an object with an object under its name. All
operands have to be there, as natural numbers that fit their field, and
members that are no operands are passed over.
-/

namespace ChipEight.Instruction

/-- A byte operand. -/
def byte? (operands : Json) (name : String) : Option UInt8 :=
  (operands.member? name).bind fun v => (v.natural? UInt8.size).map UInt8.ofNat

/-- An address operand. -/
def addr? (operands : Json) : Option UInt16 :=
  (operands.member? "addr").bind fun v => (v.natural? UInt16.size).map UInt16.ofNat

/-- An instruction without operands by its name. -/
def bare? : String → Option Instruction
  | "Cls" => some clear
  | "Ret" => some ret
  | _ => none

/-- An instruction with one address by its name. -/
def withAddr? : String → Option (UInt16 → Instruction)
  | "Jp" => some jump
  | "Call" => some call
  | "JpV0" => some jumpOffset
  | "LdI" => some setIndex
  | _ => none

/-- An instruction with a register and a byte by its name. -/
def withByte? : String → Option (UInt8 → UInt8 → Instruction)
  | "SeByte" => some skipEqByte
  | "SneByte" => some skipNeByte
  | "LdByte" => some loadByte
  | "AddByte" => some addByte
  | "Rnd" => some random
  | _ => none

/-- An instruction with two registers by its name. -/
def withPair? : String → Option (UInt8 → UInt8 → Instruction)
  | "SeReg" => some skipEqReg
  | "SneReg" => some skipNeReg
  | "LdReg" => some copy
  | "Or" => some or
  | "And" => some and
  | "Xor" => some xor
  | "AddReg" => some add
  | "Sub" => some sub
  | "Shr" => some shiftRight
  | "Subn" => some subFrom
  | "Shl" => some shiftLeft
  | _ => none

/-- An instruction with one register by its name. -/
def withRegister? : String → Option (UInt8 → Instruction)
  | "AddI" => some addIndex
  | "LdFont" => some fontIndex
  | "LdBcd" => some storeDecimal
  | "StoreRegs" => some storeRegisters
  | "LoadRegs" => some loadRegisters
  | "Skp" => some skipPressed
  | "Sknp" => some skipReleased
  | "WaitKey" => some waitKey
  | "LdVxDt" => some readDelay
  | "LdDtVx" => some setDelay
  | "LdStVx" => some setSound
  | _ => none

/-- An instruction by its name and the object with its operands. -/
def withOperands? (operands : Json) (name : String) : Option Instruction :=
  let byte := byte? operands
  if name = "Drw" then do return draw (← byte "x") (← byte "y") (← byte "n")
  else if let some make := withAddr? name then (addr? operands).map make
  else if let some make := withByte? name then do return make (← byte "x") (← byte "nn")
  else if let some make := withPair? name then do return make (← byte "x") (← byte "y")
  else if let some make := withRegister? name then (byte "x").map make
  else none

/-- The name that a string spells. -/
def name? (body : List Char) : Option String :=
  (Json.unescape? body).map String.ofList

/-- The instruction that a JSON value shows. -/
def ofJson? : Json → Option Instruction
  | .string name => (name? name).bind bare?
  | .object [(name, .null)] => (name? name).bind bare?
  | .object [(name, .object operands)] => (name? name).bind (withOperands? (.object operands))
  | _ => none

end ChipEight.Instruction
