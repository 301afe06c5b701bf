import ChipEight.Proofs.Decoding

/-!
# Encoding and decoding undo each other

The instruction set is written down twice, once as the words that each instruction
may have and once as the instruction of each word. The two agree: a word that is an
instruction is exactly the word of that instruction, no two instructions with
operands in range share a word, and a word that is refused is the word of nothing.

An instruction may hold operands that no word has room for. `Instruction.fitted` is
what its word can carry of it, and what comes back from decoding. It is the
instruction itself if all operands are in range.

The argument has two halves, one for each way around. The fields of a word that was
put together are its parts, cut to their fields (`kind_ofNibbles` and its kin), and a
word put together from its own fields is that word (`ofNibbles_fields` and its kin).
-/

namespace ChipEight

/-! ## Operands cut to their fields -/

/-- The instruction with its operands cut to the fields of a word. -/
def Instruction.fitted : Instruction → Instruction
  | clear => clear
  | draw x y n => draw (x % 0x10) (y % 0x10) (n % 0x10)
  | ret => ret
  | jump a => jump (a % 0x1000)
  | call a => call (a % 0x1000)
  | jumpOffset a => jumpOffset (a % 0x1000)
  | skipEqByte x nn => skipEqByte (x % 0x10) nn
  | skipNeByte x nn => skipNeByte (x % 0x10) nn
  | skipEqReg x y => skipEqReg (x % 0x10) (y % 0x10)
  | skipNeReg x y => skipNeReg (x % 0x10) (y % 0x10)
  | loadByte x nn => loadByte (x % 0x10) nn
  | addByte x nn => addByte (x % 0x10) nn
  | copy x y => copy (x % 0x10) (y % 0x10)
  | or x y => or (x % 0x10) (y % 0x10)
  | and x y => and (x % 0x10) (y % 0x10)
  | xor x y => xor (x % 0x10) (y % 0x10)
  | add x y => add (x % 0x10) (y % 0x10)
  | sub x y => sub (x % 0x10) (y % 0x10)
  | shiftRight x y => shiftRight (x % 0x10) (y % 0x10)
  | subFrom x y => subFrom (x % 0x10) (y % 0x10)
  | shiftLeft x y => shiftLeft (x % 0x10) (y % 0x10)
  | random x nn => random (x % 0x10) nn
  | setIndex a => setIndex (a % 0x1000)
  | addIndex x => addIndex (x % 0x10)
  | fontIndex x => fontIndex (x % 0x10)
  | storeDecimal x => storeDecimal (x % 0x10)
  | storeRegisters x => storeRegisters (x % 0x10)
  | loadRegisters x => loadRegisters (x % 0x10)
  | skipPressed x => skipPressed (x % 0x10)
  | skipReleased x => skipReleased (x % 0x10)
  | waitKey x => waitKey (x % 0x10)
  | readDelay x => readDelay (x % 0x10)
  | setDelay x => setDelay (x % 0x10)
  | setSound x => setSound (x % 0x10)

theorem toNat_mod_nibble (a : UInt8) : (a % 0x10).toNat = a.toNat % 0x10 :=
  UInt8.toNat_mod a 0x10

theorem toNat_mod_address (a : UInt16) : (a % 0x1000).toNat = a.toNat % 0x1000 :=
  UInt16.toNat_mod a 0x1000

theorem mod_nibble_of_lt {a : UInt8} (h : a.toNat < 16) : a % 0x10 = a :=
  UInt8.toNat_inj.1 ((toNat_mod_nibble a).trans (Nat.mod_eq_of_lt h))

theorem mod_address_of_lt {a : UInt16} (h : a.toNat < 0x1000) : a % 0x1000 = a :=
  UInt16.toNat_inj.1 ((toNat_mod_address a).trans (Nat.mod_eq_of_lt h))

theorem Instruction.fitted_of_inRange {i : Instruction} (h : i.InRange) : i.fitted = i := by
  cases i <;> simp_all [InRange, fitted, mod_nibble_of_lt, mod_address_of_lt]

namespace Word

/-! ## The fields of a word put together -/

variable (kind x y n nn : UInt8) (nnn : UInt16)

@[simp] theorem kind_ofAddress : (ofAddress kind nnn).kind = kind % 0x10 := by
  apply UInt8.toNat_inj.1
  rw [toNat_kind, toNat_ofAddress, toNat_mod_nibble]
  omega

@[simp] theorem nnn_ofAddress : (ofAddress kind nnn).nnn = nnn % 0x1000 := by
  apply UInt16.toNat_inj.1
  rw [toNat_nnn, toNat_ofAddress, toNat_mod_address]
  omega

@[simp] theorem kind_ofByte : (ofByte kind x nn).kind = kind % 0x10 := by
  have := nn.toNat_lt
  apply UInt8.toNat_inj.1
  rw [toNat_kind, toNat_ofByte, toNat_mod_nibble]
  omega

@[simp] theorem x_ofByte : (ofByte kind x nn).x = x % 0x10 := by
  have := nn.toNat_lt
  apply UInt8.toNat_inj.1
  rw [toNat_x, toNat_ofByte, toNat_mod_nibble]
  omega

@[simp] theorem nn_ofByte : (ofByte kind x nn).nn = nn := by
  have := nn.toNat_lt
  apply UInt8.toNat_inj.1
  rw [toNat_nn, toNat_ofByte]
  omega

@[simp] theorem kind_ofNibbles : (ofNibbles kind x y n).kind = kind % 0x10 := by
  apply UInt8.toNat_inj.1
  rw [toNat_kind, toNat_ofNibbles, toNat_mod_nibble]
  omega

@[simp] theorem x_ofNibbles : (ofNibbles kind x y n).x = x % 0x10 := by
  apply UInt8.toNat_inj.1
  rw [toNat_x, toNat_ofNibbles, toNat_mod_nibble]
  omega

@[simp] theorem y_ofNibbles : (ofNibbles kind x y n).y = y % 0x10 := by
  apply UInt8.toNat_inj.1
  rw [toNat_y, toNat_ofNibbles, toNat_mod_nibble]
  omega

@[simp] theorem n_ofNibbles : (ofNibbles kind x y n).n = n % 0x10 := by
  apply UInt8.toNat_inj.1
  rw [toNat_n, toNat_ofNibbles, toNat_mod_nibble]
  omega

/-! ## A word put together from its fields -/

variable {w : Word} {kind n nn : UInt8}

/-- A word is put together from its kind and its address. -/
theorem ofAddress_fields (hk : w.kind.toNat = kind.toNat) : ofAddress kind w.nnn = w := by
  apply ext_toNat
  rw [toNat_ofAddress, ← hk, toNat_kind, toNat_nnn]
  have := w.bits.toNat_lt
  omega

/-- A word is put together from its kind, its first register and its byte. -/
theorem ofByte_fields (hk : w.kind.toNat = kind.toNat) (hnn : w.nn.toNat = nn.toNat) :
    ofByte kind w.x nn = w := by
  apply ext_toNat
  rw [toNat_ofByte, ← hk, ← hnn, toNat_kind, toNat_x, toNat_nn]
  have := w.bits.toNat_lt
  omega

/-- A word is put together from its four nibbles. -/
theorem ofNibbles_fields (hk : w.kind.toNat = kind.toNat) (hn : w.n.toNat = n.toNat) :
    ofNibbles kind w.x w.y n = w := by
  apply ext_toNat
  rw [toNat_ofNibbles, ← hk, ← hn, toNat_kind, toNat_x, toNat_y, toNat_n]
  have := w.bits.toNat_lt
  omega

/-- A word of kind zero is nothing but its address. -/
theorem mk_of_kind_zero {a : UInt16} (hk : w.kind.toNat = 0) (ha : w.nnn.toNat = a.toNat) :
    ⟨a⟩ = w := by
  apply ext_toNat
  rw [toNat_kind] at hk
  rw [toNat_nnn] at ha
  dsimp only
  omega

/-! ## Both ways around -/

/-- **Decoding undoes encoding**, up to the operand bits that no word has room for. -/
theorem decode?_encode (i : Instruction) : i.encode.decode? = some i.fitted := by
  cases i with
  | clear | ret => rfl
  | _ => simp [Instruction.encode, decode?, Instruction.fitted]

/-- **Encoding undoes decoding.** -/
theorem encode_of_decode? {w : Word} {i : Instruction} (h : w.decode? = some i) :
    i.encode = w := by
  unfold decode? at h
  -- one goal for each form of a word, with the fields that make it that form
  repeat' split at h
  all_goals cases h
  · exact mk_of_kind_zero ‹_› ‹_›
  · exact mk_of_kind_zero ‹_› ‹_›
  all_goals simp [Instruction.encode, ofAddress_fields, ofByte_fields, ofNibbles_fields, *]

/-- The word of an instruction whose operands fit determines it. -/
theorem decode?_eq_some_iff (w : Word) (i : Instruction) :
    w.decode? = some i ↔ i.encode = w ∧ i.InRange := by
  constructor
  · intro h
    exact ⟨encode_of_decode? h, inRange_of_decode? h⟩
  · rintro ⟨rfl, hi⟩
    rw [decode?_encode, Instruction.fitted_of_inRange hi]

end Word

/-- The second register of `8XY4` has room for a nibble only. -/
example : (Instruction.add 0x1 0x2F).encode.decode? = some (.add 0x1 0xF) := by decide

end ChipEight
