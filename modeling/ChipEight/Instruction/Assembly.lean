import ChipEight.Instruction.Encoding

/-!
# Assembly text and listings

Instructions in the customary mnemonics. Registers are written with one
upper-case hexadecimal digit after `V`, immediate bytes and addresses as
hexadecimal literals, and the height of a sprite in decimal. A word that is no
instruction is shown as `???` with its digits in a comment.

The listing of a program image is two comment lines and a blank one, then a line
for each word with its address, its digits and its assembly text. A byte left
over at the end is listed as data. Addresses count on past 16 bits.
-/

namespace ChipEight

/-! ## Instructions -/

/-- The name of a register. -/
def Instruction.register (x : UInt8) : String :=
  "V" ++ Hex.upper 1 x.toNat

/-- The assembly text of an instruction. -/
def Instruction.assembly : Instruction → String
  | clear => "CLS"
  | draw x y n => "DRW " ++ register x ++ ", " ++ register y ++ ", " ++ decimal n.toNat
  | ret => "RET"
  | jump a => "JP " ++ Hex.address a.toNat
  | call a => "CALL " ++ Hex.address a.toNat
  | jumpOffset a => "JP V0, " ++ Hex.address a.toNat
  | skipEqByte x nn => "SE " ++ register x ++ ", " ++ Hex.byte nn.toNat
  | skipNeByte x nn => "SNE " ++ register x ++ ", " ++ Hex.byte nn.toNat
  | skipEqReg x y => "SE " ++ register x ++ ", " ++ register y
  | skipNeReg x y => "SNE " ++ register x ++ ", " ++ register y
  | loadByte x nn => "LD " ++ register x ++ ", " ++ Hex.byte nn.toNat
  | addByte x nn => "ADD " ++ register x ++ ", " ++ Hex.byte nn.toNat
  | copy x y => "LD " ++ register x ++ ", " ++ register y
  | or x y => "OR " ++ register x ++ ", " ++ register y
  | and x y => "AND " ++ register x ++ ", " ++ register y
  | xor x y => "XOR " ++ register x ++ ", " ++ register y
  | add x y => "ADD " ++ register x ++ ", " ++ register y
  | sub x y => "SUB " ++ register x ++ ", " ++ register y
  | shiftRight x y => "SHR " ++ register x ++ ", " ++ register y
  | subFrom x y => "SUBN " ++ register x ++ ", " ++ register y
  | shiftLeft x y => "SHL " ++ register x ++ ", " ++ register y
  | random x nn => "RND " ++ register x ++ ", " ++ Hex.byte nn.toNat
  | setIndex a => "LD I, " ++ Hex.address a.toNat
  | addIndex x => "ADD I, " ++ register x
  | fontIndex x => "LD F, " ++ register x
  | storeDecimal x => "LD B, " ++ register x
  | storeRegisters x => "LD [I], " ++ register x
  | loadRegisters x => "LD " ++ register x ++ ", [I]"
  | skipPressed x => "SKP " ++ register x
  | skipReleased x => "SKNP " ++ register x
  | waitKey x => "LD " ++ register x ++ ", K"
  | readDelay x => "LD " ++ register x ++ ", DT"
  | setDelay x => "LD DT, " ++ register x
  | setSound x => "LD ST, " ++ register x

/-- The assembly text of a word, be it an instruction or not. -/
def Word.assembly (w : Word) : String :=
  match w.decode? with
  | some i => i.assembly
  | none => "??? ; " ++ w.text

/-! ## Listings -/

namespace Listing

/-- The lines above every listing. -/
def header : List String :=
  ["; Chip-8 Disassembly", "; ------------------", ""]

/-- The line of one word. -/
def wordLine (address : Nat) (w : Word) : String :=
  Hex.address address ++ ": " ++ w.text ++ "  " ++ w.assembly

/-- The line of a byte that is only half a word. -/
def dataLine (address : Nat) (b : UInt8) : String :=
  Hex.address address ++ ": " ++ Hex.upper 2 b.toNat ++ "    DB " ++ Hex.byte b.toNat

/-- The lines of an image that starts at `address`. -/
def lines (address : Nat) : List UInt8 → List String
  | hi :: lo :: rest => wordLine address (.ofBytes hi lo) :: lines (address + 2) rest
  | [b] => [dataLine address b]
  | [] => []

/-- The listing of an image loaded at `origin`, each line ended. -/
def text (image : List UInt8) (origin : UInt16) : String :=
  String.join ((header ++ lines origin.toNat image).map (· ++ "\n"))

end Listing

end ChipEight
