import ChipEight.Instruction.Encoding

/-!
# What decoding promises

Two facts about `Word.decode?` that the rest of the theory leans on.

**Operands are in range.** Registers and sprite heights are nibbles and addresses
have twelve bits. Nothing downstream checks this again: a register operand is
used as an index, and `BNNN` adds to its address, on the strength of it alone.

**What can go wrong is written in the word.** Only a few instructions can be
refused once they are decoded: those that use the stack, those that use bytes at
`I`, and those that ask for a key. Which ones these are can be read off the word
without decoding it.
-/

namespace ChipEight

/-! ## Operands -/

/-- Every operand fits the field that a word has for it. -/
def Instruction.InRange : Instruction → Prop
  | clear | ret => True
  | jump a | call a | jumpOffset a | setIndex a => a.toNat < 0x1000
  | draw x y n => x.toNat < 16 ∧ y.toNat < 16 ∧ n.toNat < 16
  | skipEqReg x y | skipNeReg x y | copy x y | or x y | and x y | xor x y | add x y | sub x y
  | shiftRight x y | subFrom x y | shiftLeft x y => x.toNat < 16 ∧ y.toNat < 16
  | skipEqByte x _ | skipNeByte x _ | loadByte x _ | addByte x _ | random x _ => x.toNat < 16
  | addIndex x | fontIndex x | storeDecimal x | storeRegisters x | loadRegisters x
  | skipPressed x | skipReleased x | waitKey x | readDelay x | setDelay x | setSound x =>
    x.toNat < 16

namespace Word

theorem x_lt (w : Word) : w.x.toNat < 16 := by
  rw [toNat_x]; exact Nat.mod_lt _ (by decide)

theorem y_lt (w : Word) : w.y.toNat < 16 := by
  rw [toNat_y]; exact Nat.mod_lt _ (by decide)

theorem n_lt (w : Word) : w.n.toNat < 16 := by
  rw [toNat_n]; exact Nat.mod_lt _ (by decide)

theorem nnn_lt (w : Word) : w.nnn.toNat < 0x1000 := by
  rw [toNat_nnn]; exact Nat.mod_lt _ (by decide)

/-- **Decoded operands fit their fields.** -/
theorem inRange_of_decode? {w : Word} {i : Instruction} (h : w.decode? = some i) : i.InRange := by
  have hx := w.x_lt
  have hy := w.y_lt
  have hn := w.n_lt
  have ha := w.nnn_lt
  unfold decode? at h
  repeat' split at h
  all_goals cases h
  all_goals simp only [Instruction.InRange, hx, hy, hn, ha, and_self]

end Word

/-! ## Ways to be refused -/

/-- What an instruction asks of the machine, and may be refused for. -/
inductive Demand where
  /-- Nothing that can be refused. -/
  | nothing
  /-- Room on the call stack. -/
  | room
  /-- A return address on the call stack. -/
  | address
  /-- So many bytes of memory at `I`. -/
  | bytes (len : Nat)
  /-- The number of a key in a register. -/
  | key (register : UInt8)

/-- The demand of an instruction. -/
def Instruction.demand : Instruction → Demand
  | call _ => .room
  | ret => .address
  | draw _ _ n => .bytes n.toNat
  | storeDecimal _ => .bytes 3
  | storeRegisters x | loadRegisters x => .bytes (x.toNat + 1)
  | skipPressed x | skipReleased x => .key x
  | clear | jump _ | jumpOffset _ | skipEqByte _ _ | skipNeByte _ _ | skipEqReg _ _
  | skipNeReg _ _ | loadByte _ _ | addByte _ _ | copy _ _ | or _ _ | and _ _ | xor _ _ | add _ _
  | sub _ _ | shiftRight _ _ | subFrom _ _ | shiftLeft _ _ | random _ _ | setIndex _ | addIndex _
  | fontIndex _ | waitKey _ | readDelay _ | setDelay _ | setSound _ => .nothing

namespace Word

/-- The word is `2NNN`. -/
def IsCall (w : Word) : Prop :=
  w.kind.toNat = 0x2

/-- The word is `00EE`. -/
def IsReturn (w : Word) : Prop :=
  w.bits = 0x00EE

/-- How many bytes at `I` the word uses: `N` in `DXYN`, three in `FX33`, and `X + 1` in `FX55` and
`FX65`. -/
def span? (w : Word) : Option Nat :=
  if w.kind.toNat = 0xD then some w.n.toNat
  else if w.kind.toNat = 0xF ∧ w.nn.toNat = 0x33 then some 3
  else if w.kind.toNat = 0xF ∧ (w.nn.toNat = 0x55 ∨ w.nn.toNat = 0x65) then some (w.x.toNat + 1)
  else none

/-- The word is `EX9E` or `EXA1`. -/
def AsksKey (w : Word) : Prop :=
  w.kind.toNat = 0xE ∧ (w.nn.toNat = 0x9E ∨ w.nn.toNat = 0xA1)

theorem isReturn_iff (w : Word) : w.IsReturn ↔ w.kind.toNat = 0x0 ∧ w.nnn.toNat = 0x0EE := by
  have h : w.IsReturn ↔ w.bits.toNat = 0x00EE := UInt16.toNat_inj.symm
  rw [h, toNat_kind, toNat_nnn]
  omega

/-- The word is an instruction with a demand. -/
def Demands (w : Word) (d : Demand) : Prop :=
  ∃ i, w.decode? = some i ∧ i.demand = d

/-- **The word already shows what its instruction demands.** -/
theorem demand_of_decode? {w : Word} {i : Instruction} (h : w.decode? = some i) :
    (i.demand = .room ↔ w.IsCall) ∧ (i.demand = .address ↔ w.IsReturn) ∧
      (∀ len, i.demand = .bytes len ↔ w.span? = some len) ∧
      (∀ x, i.demand = .key x ↔ w.AsksKey ∧ w.x = x) := by
  rw [isReturn_iff]
  unfold decode? at h
  -- one goal for each form of a word, with the fields that make it that form
  repeat' split at h
  all_goals cases h
  all_goals simp [Instruction.demand, IsCall, span?, AsksKey, *]

/-- A word that shows a demand is an instruction. -/
theorem exists_decode?_of_shown {w : Word}
    (h : w.IsCall ∨ w.IsReturn ∨ (∃ len, w.span? = some len) ∨ w.AsksKey) :
    ∃ i, w.decode? = some i := by
  rw [isReturn_iff] at h
  rcases h with h | ⟨h0, h1⟩ | ⟨len, h⟩ | ⟨h0, h1 | h1⟩
  · simp [decode?, show w.kind.toNat = 0x2 from h]
  · simp [decode?, h0, h1]
  · unfold span? at h
    split at h
    · rename_i hk
      simp [decode?, hk]
    · split at h
      · rename_i hk
        simp [decode?, hk]
      · split at h
        · rename_i hk
          rcases hk with ⟨hk, hn | hn⟩ <;> simp [decode?, hk, hn]
        · cases h
  · simp [decode?, h0, h1]
  · simp [decode?, h0, h1]

theorem demands_room (w : Word) : w.Demands .room ↔ w.IsCall := by
  constructor
  · rintro ⟨i, hi, hd⟩
    exact (demand_of_decode? hi).1.mp hd
  · intro h
    obtain ⟨i, hi⟩ := exists_decode?_of_shown (.inl h)
    exact ⟨i, hi, (demand_of_decode? hi).1.mpr h⟩

theorem demands_address (w : Word) : w.Demands .address ↔ w.IsReturn := by
  constructor
  · rintro ⟨i, hi, hd⟩
    exact (demand_of_decode? hi).2.1.mp hd
  · intro h
    obtain ⟨i, hi⟩ := exists_decode?_of_shown (.inr (.inl h))
    exact ⟨i, hi, (demand_of_decode? hi).2.1.mpr h⟩

theorem demands_bytes (w : Word) (len : Nat) : w.Demands (.bytes len) ↔ w.span? = some len := by
  constructor
  · rintro ⟨i, hi, hd⟩
    exact ((demand_of_decode? hi).2.2.1 len).mp hd
  · intro h
    obtain ⟨i, hi⟩ := exists_decode?_of_shown (.inr (.inr (.inl ⟨len, h⟩)))
    exact ⟨i, hi, ((demand_of_decode? hi).2.2.1 len).mpr h⟩

theorem demands_key (w : Word) (x : UInt8) : w.Demands (.key x) ↔ w.AsksKey ∧ w.x = x := by
  constructor
  · rintro ⟨i, hi, hd⟩
    exact ((demand_of_decode? hi).2.2.2 x).mp hd
  · intro h
    obtain ⟨i, hi⟩ := exists_decode?_of_shown (.inr (.inr (.inr h.1)))
    exact ⟨i, hi, ((demand_of_decode? hi).2.2.2 x).mpr h⟩

end Word

end ChipEight
