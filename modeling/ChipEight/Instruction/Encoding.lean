import ChipEight.Instruction.Basic
import ChipEight.Instruction.Word

/-!
# Words and instructions

`Word.decode?` judges which words are instructions, and `Instruction.encode`
gives the word of an instruction, dropping the operand bits that do not fit.
-/

namespace ChipEight

/-- The instruction that a word stands for, if any. -/
def Word.decode? (w : Word) : Option Instruction :=
  match w.kind.toNat with
  | 0x0 =>
    match w.nnn.toNat with
    | 0x0E0 => some .clear
    | 0x0EE => some .ret
    | _ => none
  | 0x1 => some (.jump w.nnn)
  | 0x2 => some (.call w.nnn)
  | 0x3 => some (.skipEqByte w.x w.nn)
  | 0x4 => some (.skipNeByte w.x w.nn)
  | 0x5 => if w.n = 0 then some (.skipEqReg w.x w.y) else none
  | 0x6 => some (.loadByte w.x w.nn)
  | 0x7 => some (.addByte w.x w.nn)
  | 0x8 =>
    match w.n.toNat with
    | 0x0 => some (.copy w.x w.y)
    | 0x1 => some (.or w.x w.y)
    | 0x2 => some (.and w.x w.y)
    | 0x3 => some (.xor w.x w.y)
    | 0x4 => some (.add w.x w.y)
    | 0x5 => some (.sub w.x w.y)
    | 0x6 => some (.shiftRight w.x w.y)
    | 0x7 => some (.subFrom w.x w.y)
    | 0xE => some (.shiftLeft w.x w.y)
    | _ => none
  | 0x9 => if w.n = 0 then some (.skipNeReg w.x w.y) else none
  | 0xA => some (.setIndex w.nnn)
  | 0xB => some (.jumpOffset w.nnn)
  | 0xC => some (.random w.x w.nn)
  | 0xD => some (.draw w.x w.y w.n)
  | 0xE =>
    match w.nn.toNat with
    | 0x9E => some (.skipPressed w.x)
    | 0xA1 => some (.skipReleased w.x)
    | _ => none
  | 0xF =>
    match w.nn.toNat with
    | 0x07 => some (.readDelay w.x)
    | 0x0A => some (.waitKey w.x)
    | 0x15 => some (.setDelay w.x)
    | 0x18 => some (.setSound w.x)
    | 0x1E => some (.addIndex w.x)
    | 0x29 => some (.fontIndex w.x)
    | 0x33 => some (.storeDecimal w.x)
    | 0x55 => some (.storeRegisters w.x)
    | 0x65 => some (.loadRegisters w.x)
    | _ => none
  | _ => none

/-- What is said of a word that is no instruction. -/
def Word.unknownMessage (w : Word) : String :=
  "invalid opcode: " ++ w.text

/-- The word of an instruction. -/
def Instruction.encode : Instruction → Word
  | clear => ⟨0x00E0⟩
  | ret => ⟨0x00EE⟩
  | jump a => .ofAddress 0x1 a
  | call a => .ofAddress 0x2 a
  | skipEqByte x nn => .ofByte 0x3 x nn
  | skipNeByte x nn => .ofByte 0x4 x nn
  | skipEqReg x y => .ofNibbles 0x5 x y 0x0
  | loadByte x nn => .ofByte 0x6 x nn
  | addByte x nn => .ofByte 0x7 x nn
  | copy x y => .ofNibbles 0x8 x y 0x0
  | or x y => .ofNibbles 0x8 x y 0x1
  | and x y => .ofNibbles 0x8 x y 0x2
  | xor x y => .ofNibbles 0x8 x y 0x3
  | add x y => .ofNibbles 0x8 x y 0x4
  | sub x y => .ofNibbles 0x8 x y 0x5
  | shiftRight x y => .ofNibbles 0x8 x y 0x6
  | subFrom x y => .ofNibbles 0x8 x y 0x7
  | shiftLeft x y => .ofNibbles 0x8 x y 0xE
  | skipNeReg x y => .ofNibbles 0x9 x y 0x0
  | setIndex a => .ofAddress 0xA a
  | jumpOffset a => .ofAddress 0xB a
  | random x nn => .ofByte 0xC x nn
  | draw x y n => .ofNibbles 0xD x y n
  | skipPressed x => .ofByte 0xE x 0x9E
  | skipReleased x => .ofByte 0xE x 0xA1
  | readDelay x => .ofByte 0xF x 0x07
  | waitKey x => .ofByte 0xF x 0x0A
  | setDelay x => .ofByte 0xF x 0x15
  | setSound x => .ofByte 0xF x 0x18
  | addIndex x => .ofByte 0xF x 0x1E
  | fontIndex x => .ofByte 0xF x 0x29
  | storeDecimal x => .ofByte 0xF x 0x33
  | storeRegisters x => .ofByte 0xF x 0x55
  | loadRegisters x => .ofByte 0xF x 0x65

end ChipEight
