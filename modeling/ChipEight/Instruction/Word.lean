import ChipEight.Text

/-!
# Instruction words

A program is a sequence of big-endian 16-bit words. The high nibble of a word
is its kind; the other twelve bits hold some of the operand fields:

```text
15..12  11..8  7..4  3..0
kind    x      y     n
                [ - nn - ]
        [ ----- nnn ---- ]
```

Any word can be cut into fields; whether it is an instruction is a question
for `ChipEight.Instruction.Encoding`. Fields are quotients and remainders, so
a word is put together by adding up its fields at their weights.
-/

namespace ChipEight

/-- A 16-bit instruction word. -/
structure Word where
  /-- The word as a number. -/
  bits : UInt16
deriving DecidableEq

namespace Word

/-- The word stored as a high and a low byte. -/
def ofBytes (hi lo : UInt8) : Word :=
  ⟨hi.toUInt16 * 0x100 + lo.toUInt16⟩

/-- The word `KNNN`. Bits that do not fit a field are dropped. -/
def ofAddress (kind : UInt8) (nnn : UInt16) : Word :=
  ⟨kind.toUInt16 % 0x10 * 0x1000 + nnn % 0x1000⟩

/-- The word `KXNN`. Bits that do not fit a field are dropped. -/
def ofByte (kind x nn : UInt8) : Word :=
  ⟨kind.toUInt16 % 0x10 * 0x1000 + x.toUInt16 % 0x10 * 0x100 + nn.toUInt16⟩

/-- The word `KXYN`. Bits that do not fit a field are dropped. -/
def ofNibbles (kind x y n : UInt8) : Word :=
  ⟨kind.toUInt16 % 0x10 * 0x1000 + x.toUInt16 % 0x10 * 0x100 +
    y.toUInt16 % 0x10 * 0x10 + n.toUInt16 % 0x10⟩

/-- Bits 12 to 15: the kind of instruction. -/
def kind (w : Word) : UInt8 :=
  (w.bits / 0x1000).toUInt8

/-- Bits 8 to 11: the first register. -/
def x (w : Word) : UInt8 :=
  (w.bits / 0x100 % 0x10).toUInt8

/-- Bits 4 to 7: the second register. -/
def y (w : Word) : UInt8 :=
  (w.bits / 0x10 % 0x10).toUInt8

/-- Bits 0 to 3: a small count. -/
def n (w : Word) : UInt8 :=
  (w.bits % 0x10).toUInt8

/-- Bits 0 to 7: an immediate byte. -/
def nn (w : Word) : UInt8 :=
  (w.bits % 0x100).toUInt8

/-- Bits 0 to 11: an address. -/
def nnn (w : Word) : UInt16 :=
  w.bits % 0x1000

/-- The byte stored first. -/
def high (w : Word) : UInt8 :=
  (w.bits / 0x100).toUInt8

/-- The byte stored second. -/
def low (w : Word) : UInt8 :=
  (w.bits % 0x100).toUInt8

/-- The word as four upper-case hexadecimal digits. -/
def text (w : Word) : String :=
  Hex.upper 4 w.bits.toNat

/-- The word marked as an operation code. -/
def describe (w : Word) : String :=
  "Opcode(" ++ w.text ++ ")"

/-! ## Words and fields as numbers -/

/-- A word from two bytes, as a number. -/
theorem toNat_ofBytes (hi lo : UInt8) :
    (ofBytes hi lo).bits.toNat = hi.toNat * 0x100 + lo.toNat := by
  have := hi.toNat_lt
  have := lo.toNat_lt
  simp [ofBytes]
  omega

/-- A word from a kind and an address, as a number. -/
theorem toNat_ofAddress (kind : UInt8) (nnn : UInt16) :
    (ofAddress kind nnn).bits.toNat = kind.toNat % 0x10 * 0x1000 + nnn.toNat % 0x1000 := by
  simp [ofAddress]
  omega

/-- A word from a kind, a register and a byte, as a number. -/
theorem toNat_ofByte (kind x nn : UInt8) :
    (ofByte kind x nn).bits.toNat =
      kind.toNat % 0x10 * 0x1000 + x.toNat % 0x10 * 0x100 + nn.toNat := by
  have := nn.toNat_lt
  simp [ofByte]
  omega

/-- A word from four nibbles, as a number. -/
theorem toNat_ofNibbles (kind x y n : UInt8) :
    (ofNibbles kind x y n).bits.toNat =
      kind.toNat % 0x10 * 0x1000 + x.toNat % 0x10 * 0x100 + y.toNat % 0x10 * 0x10 +
        n.toNat % 0x10 := by
  simp [ofNibbles]
  omega

theorem toNat_kind (w : Word) : w.kind.toNat = w.bits.toNat / 0x1000 := by
  have := w.bits.toNat_lt
  simp [kind]
  omega

theorem toNat_x (w : Word) : w.x.toNat = w.bits.toNat / 0x100 % 0x10 := by
  simp [x]
  omega

theorem toNat_y (w : Word) : w.y.toNat = w.bits.toNat / 0x10 % 0x10 := by
  simp [y]
  omega

theorem toNat_n (w : Word) : w.n.toNat = w.bits.toNat % 0x10 := by
  simp [n]
  omega

theorem toNat_nn (w : Word) : w.nn.toNat = w.bits.toNat % 0x100 := by
  simp [nn]

theorem toNat_nnn (w : Word) : w.nnn.toNat = w.bits.toNat % 0x1000 := by
  simp [nnn]

/-- Words with the same number are equal. -/
theorem ext_toNat {w w' : Word} (h : w.bits.toNat = w'.bits.toNat) : w = w' := by
  cases w
  cases w'
  congr 1
  exact UInt16.toNat_inj.1 h

end Word

end ChipEight
