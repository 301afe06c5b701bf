import ChipEight.Text

/-!
# The instruction set

One constructor for each of the thirty-four instructions. Register operands
and small counts are bytes and addresses are 16-bit numbers, so a value may
hold an operand that no word can carry: `Instruction.encode` drops the bits
that do not fit, and the texts show the operand as it is.
-/

namespace ChipEight

/-- A machine instruction. `V` registers are named by their index. -/
inductive Instruction where
  /-- `00E0`: clear the screen. -/
  | clear
  /-- `DXYN`: draw the `n` bytes at `I` with their top left corner at `(VX, VY)`; `VF` tells of a
  collision. -/
  | draw (x y n : UInt8)
  /-- `00EE`: return from a subroutine. -/
  | ret
  /-- `1NNN`: jump. -/
  | jump (addr : UInt16)
  /-- `2NNN`: call a subroutine. -/
  | call (addr : UInt16)
  /-- `BNNN`: jump to `addr + V0`. -/
  | jumpOffset (addr : UInt16)
  /-- `3XNN`: skip the next instruction if `VX = nn`. -/
  | skipEqByte (x nn : UInt8)
  /-- `4XNN`: skip the next instruction if `VX ≠ nn`. -/
  | skipNeByte (x nn : UInt8)
  /-- `5XY0`: skip the next instruction if `VX = VY`. -/
  | skipEqReg (x y : UInt8)
  /-- `9XY0`: skip the next instruction if `VX ≠ VY`. -/
  | skipNeReg (x y : UInt8)
  /-- `6XNN`: put `nn` into `VX`. -/
  | loadByte (x nn : UInt8)
  /-- `7XNN`: add `nn` to `VX`, without a flag. -/
  | addByte (x nn : UInt8)
  /-- `8XY0`: copy `VY` into `VX`. -/
  | copy (x y : UInt8)
  /-- `8XY1`: or `VY` into `VX`. -/
  | or (x y : UInt8)
  /-- `8XY2`: and `VY` into `VX`. -/
  | and (x y : UInt8)
  /-- `8XY3`: exclusive-or `VY` into `VX`. -/
  | xor (x y : UInt8)
  /-- `8XY4`: add `VY` to `VX`; `VF` is the carry. -/
  | add (x y : UInt8)
  /-- `8XY5`: subtract `VY` from `VX`; `VF` is set if nothing was borrowed. -/
  | sub (x y : UInt8)
  /-- `8XY6`: put `VY` shifted right into `VX`; `VF` is the bit shifted out. -/
  | shiftRight (x y : UInt8)
  /-- `8XY7`: put `VY - VX` into `VX`; `VF` is set if nothing was borrowed. -/
  | subFrom (x y : UInt8)
  /-- `8XYE`: put `VY` shifted left into `VX`; `VF` is the bit shifted out. -/
  | shiftLeft (x y : UInt8)
  /-- `CXNN`: put a random byte, masked by `nn`, into `VX`. -/
  | random (x nn : UInt8)
  /-- `ANNN`: put an address into `I`. -/
  | setIndex (addr : UInt16)
  /-- `FX1E`: add `VX` to `I`. -/
  | addIndex (x : UInt8)
  /-- `FX29`: point `I` at the font sprite of the digit in `VX`. -/
  | fontIndex (x : UInt8)
  /-- `FX33`: store the three decimal digits of `VX` at `I`. -/
  | storeDecimal (x : UInt8)
  /-- `FX55`: store `V0` to `VX` at `I` and move `I` past them. -/
  | storeRegisters (x : UInt8)
  /-- `FX65`: load `V0` to `VX` from `I` and move `I` past them. -/
  | loadRegisters (x : UInt8)
  /-- `EX9E`: skip the next instruction if the key in `VX` is down. -/
  | skipPressed (x : UInt8)
  /-- `EXA1`: skip the next instruction if the key in `VX` is up. -/
  | skipReleased (x : UInt8)
  /-- `FX0A`: wait for a key and put its number into `VX`. -/
  | waitKey (x : UInt8)
  /-- `FX07`: copy the delay timer into `VX`. -/
  | readDelay (x : UInt8)
  /-- `FX15`: set the delay timer from `VX`. -/
  | setDelay (x : UInt8)
  /-- `FX18`: set the sound timer from `VX`. -/
  | setSound (x : UInt8)
deriving DecidableEq

namespace Instruction

/-- An instruction as a record: its name and its operands, each with the name of its field.
Descriptions and state reports are both written from it. -/
def record : Instruction → String × List (String × Nat)
  | clear => ("Cls", [])
  | draw x y n => ("Drw", [("x", x.toNat), ("y", y.toNat), ("n", n.toNat)])
  | ret => ("Ret", [])
  | jump a => ("Jp", [("addr", a.toNat)])
  | call a => ("Call", [("addr", a.toNat)])
  | jumpOffset a => ("JpV0", [("addr", a.toNat)])
  | skipEqByte x nn => ("SeByte", [("x", x.toNat), ("nn", nn.toNat)])
  | skipNeByte x nn => ("SneByte", [("x", x.toNat), ("nn", nn.toNat)])
  | skipEqReg x y => ("SeReg", [("x", x.toNat), ("y", y.toNat)])
  | skipNeReg x y => ("SneReg", [("x", x.toNat), ("y", y.toNat)])
  | loadByte x nn => ("LdByte", [("x", x.toNat), ("nn", nn.toNat)])
  | addByte x nn => ("AddByte", [("x", x.toNat), ("nn", nn.toNat)])
  | copy x y => ("LdReg", [("x", x.toNat), ("y", y.toNat)])
  | or x y => ("Or", [("x", x.toNat), ("y", y.toNat)])
  | and x y => ("And", [("x", x.toNat), ("y", y.toNat)])
  | xor x y => ("Xor", [("x", x.toNat), ("y", y.toNat)])
  | add x y => ("AddReg", [("x", x.toNat), ("y", y.toNat)])
  | sub x y => ("Sub", [("x", x.toNat), ("y", y.toNat)])
  | shiftRight x y => ("Shr", [("x", x.toNat), ("y", y.toNat)])
  | subFrom x y => ("Subn", [("x", x.toNat), ("y", y.toNat)])
  | shiftLeft x y => ("Shl", [("x", x.toNat), ("y", y.toNat)])
  | random x nn => ("Rnd", [("x", x.toNat), ("nn", nn.toNat)])
  | setIndex a => ("LdI", [("addr", a.toNat)])
  | addIndex x => ("AddI", [("x", x.toNat)])
  | fontIndex x => ("LdFont", [("x", x.toNat)])
  | storeDecimal x => ("LdBcd", [("x", x.toNat)])
  | storeRegisters x => ("StoreRegs", [("x", x.toNat)])
  | loadRegisters x => ("LoadRegs", [("x", x.toNat)])
  | skipPressed x => ("Skp", [("x", x.toNat)])
  | skipReleased x => ("Sknp", [("x", x.toNat)])
  | waitKey x => ("WaitKey", [("x", x.toNat)])
  | readDelay x => ("LdVxDt", [("x", x.toNat)])
  | setDelay x => ("LdDtVx", [("x", x.toNat)])
  | setSound x => ("LdStVx", [("x", x.toNat)])

/-- The instruction as a record in words. -/
def describe (i : Instruction) : String :=
  Record.describe i.record.1 (i.record.2.map fun f => (f.1, decimal f.2))

end Instruction

end ChipEight
