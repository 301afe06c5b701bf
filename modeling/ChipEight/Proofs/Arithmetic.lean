import ChipEight.Proofs.Cycle

/-!
# Arithmetic with a flag

Five operations put a byte into `VX` and a flag into `VF`: the sum of `VX` and `VY`,
their two differences, and `VY` shifted to either side. Byte and flag together are
exact. They solve an equation in whole numbers (`Arithmetic.Exact`), in which nothing
wraps.

The registers may be aliased. `VX` and `VY` may be one register, and either of them may
be `VF`. Both operands are read before anything is written, and the flag is written
last, so the operands are always the old ones, and where `VF` is also the destination
the flag is what stays. The other operations on `VX` write nothing but `VX`.
-/

namespace ChipEight

/-! ## The operations -/

/-- An operation on `VX` and `VY` that leaves a flag. -/
inductive Arithmetic where
  | add
  | sub
  | shiftRight
  | subFrom
  | shiftLeft

namespace Arithmetic

/-- The last nibble of its words `8XYN`. -/
def code : Arithmetic → UInt8
  | add => 0x4
  | sub => 0x5
  | shiftRight => 0x6
  | subFrom => 0x7
  | shiftLeft => 0xE

/-- Its instruction. -/
def instruction : Arithmetic → UInt8 → UInt8 → Instruction
  | add => .add
  | sub => .sub
  | shiftRight => .shiftRight
  | subFrom => .subFrom
  | shiftLeft => .shiftLeft

/-- What `VX` gets for the operands `a` and `b`. -/
def result : Arithmetic → UInt8 → UInt8 → UInt8
  | add, a, b => a + b
  | sub, a, b => a - b
  | shiftRight, _, b => b >>> 1
  | subFrom, a, b => b - a
  | shiftLeft, _, b => b <<< 1

/-- Whether the flag is set for the operands `a` and `b`. -/
def flagged : Arithmetic → UInt8 → UInt8 → Bool
  | add, a, b => 256 ≤ a.toNat + b.toNat
  | sub, a, b => b ≤ a
  | shiftRight, _, b => b.toNat.testBit 0
  | subFrom, a, b => a ≤ b
  | shiftLeft, _, b => b.toNat.testBit 7

/-- The byte `r` and the flag `c` are the exact outcome for `a` and `b`. After a sum the flag is
what the byte has no room for, after a difference it is clear if 256 was borrowed, and after a
shift it is the bit that was moved out. -/
def Exact : Arithmetic → (a b r c : Int) → Prop
  | add, a, b, r, c => a + b = r + 256 * c
  | sub, a, b, r, c => a - b = r - 256 * (1 - c)
  | shiftRight, _, b, r, c => b = 2 * r + c
  | subFrom, a, b, r, c => b - a = r - 256 * (1 - c)
  | shiftLeft, _, b, r, c => 2 * b = r + 256 * c

theorem toNat_shiftRight_one (b : UInt8) : (b >>> 1).toNat = b.toNat / 2 := by
  rw [UInt8.toNat_shiftRight, Nat.shiftRight_eq_div_pow]
  rfl

theorem toNat_shiftLeft_one (b : UInt8) : (b <<< 1).toNat = 2 * b.toNat % 256 := by
  rw [UInt8.toNat_shiftLeft, Nat.shiftLeft_eq, Nat.mul_comm]
  rfl

/-- **Result and flag are exact.** -/
theorem exact (op : Arithmetic) (a b : UInt8) :
    op.Exact a.toNat b.toNat (op.result a b).toNat
      (if op.flagged a b then (1 : UInt8) else 0).toNat := by
  have ha := a.toNat_lt
  have hb := b.toNat_lt
  rw [apply_ite UInt8.toNat, UInt8.toNat_one, UInt8.toNat_zero]
  cases op with
  | add =>
      simp only [Exact, result, flagged, UInt8.toNat_add, decide_eq_true_eq]
      split <;> omega
  | sub | subFrom =>
      simp only [Exact, result, flagged, UInt8.toNat_sub, UInt8.le_iff_toNat_le, decide_eq_true_eq]
      split <;> omega
  | shiftRight =>
      simp only [Exact, result, flagged, toNat_shiftRight_one, Nat.testBit_zero, decide_eq_true_eq]
      split <;> omega
  | shiftLeft =>
      simp only [Exact, result, flagged, toNat_shiftLeft_one, Nat.testBit_eq_decide_div_mod_eq,
        decide_eq_true_eq]
      split <;> omega

end Arithmetic

/-- What the words `7XNN` and `8XY0` to `8XY3` put into `VX`, with `a` in `VX` and `b` in `VY`. They
leave no flag. -/
def Word.assigned? (w : Word) (a b : UInt8) : Option UInt8 :=
  if w.kind = 0x7 then some (a + w.nn)
  else if w.kind = 0x8 ∧ w.n = 0x0 then some b
  else if w.kind = 0x8 ∧ w.n = 0x1 then some (a ||| b)
  else if w.kind = 0x8 ∧ w.n = 0x2 then some (a &&& b)
  else if w.kind = 0x8 ∧ w.n = 0x3 then some (a ^^^ b)
  else none

/-! ## From the word to the registers -/

theorem toNat_lt_flag {z : UInt8} (hz : z.toNat < 16) (hf : z ≠ 0xF) : z.toNat < 15 :=
  Nat.lt_of_le_of_ne (Nat.le_of_lt_succ hz) fun h => hf (UInt8.toNat_inj.mp h)

namespace Registers

/-- A flag that is written last leaves the result, unless it goes into the same register. -/
theorem get_result_outcome (r : Registers) {x : UInt8} (a : UInt8) (c : Bool)
    (hx : x.toNat < 16) (hf : x ≠ 0xF) : ((r.put x a).setFlag c).get x = a := by
  rw [get_setFlag_of_lt _ _ (toNat_lt_flag hx hf), get_put_self]

/-- A result and a flag leave all other registers. -/
theorem get_other_outcome (r : Registers) {x z : UInt8} (a : UInt8) (c : Bool)
    (hx : x.toNat < 16) (hz : z.toNat < 16) (hne : z ≠ x) (hf : z ≠ 0xF) :
    ((r.put x a).setFlag c).get z = r.get z := by
  rw [get_setFlag_of_lt _ _ (toNat_lt_flag hz hf), get_put_of_ne _ _ hx hz hne]

end Registers

namespace Machine

theorem decode?_of_code {w : Word} {op : Arithmetic} (hkind : w.kind = 0x8) (hn : w.n = op.code) :
    w.decode? = some (op.instruction w.x w.y) := by
  rw [Word.decode?, hkind, hn]
  cases op <;> rfl

/-- An arithmetic instruction reads both operands, then writes the result, and then the flag. -/
theorem execute_arithmetic (m : Machine) (address : UInt16) (w : Word) (op : Arithmetic)
    (x y : UInt8) :
    let a := m.registers.get x
    let b := m.registers.get y
    m.execute address w (op.instruction x y) = accept (m.withRegisters
      ((m.registers.put x (op.result a b)).setFlag (op.flagged a b))) := by
  cases op <;> rfl

/-- A word that assigns is an instruction that writes one register. -/
theorem exists_decode?_of_assigned {m : Machine} {w : Word} {v : UInt8}
    (h : w.assigned? (m.registers.get w.x) (m.registers.get w.y) = some v) (address : UInt16) :
    ∃ i, w.decode? = some i ∧
      m.execute address w i = accept (m.withRegisters (m.registers.put w.x v)) := by
  unfold Word.assigned? at h
  repeat' split at h
  all_goals cases h
  · exact ⟨.addByte w.x w.nn, by simp [Word.decode?, *], rfl⟩
  · exact ⟨.copy w.x w.y, by simp [Word.decode?, *], rfl⟩
  · exact ⟨.or w.x w.y, by simp [Word.decode?, *], rfl⟩
  · exact ⟨.and w.x w.y, by simp [Word.decode?, *], rfl⟩
  · exact ⟨.xor w.x w.y, by simp [Word.decode?, *], rfl⟩

/--
**Arithmetic is exact under every aliasing of the registers.**

A running machine finds `8XY4` to `8XY7` or `8XYE` at its program counter. With the old
values `a` of `VX` and `b` of `VY`, there are a byte and a flag that solve the equation
of the operation. `VF` is the flag afterwards, also where `VX` is `VF`; otherwise `VX` is
the byte. All other registers are as before. At `7XNN` and `8XY0` to `8XY3` only `VX`
changes, so `VF` is as before unless it is `VX`.
-/
theorem arithmetic_exact {m : Machine} {w : Word} (hw : m.Finds w) :
    let m' := m.cycle.2
    let a := m.registers.get w.x
    let b := m.registers.get w.y
    (∀ op : Arithmetic, w.kind = 0x8 → w.n = op.code →
      m.cycle.1 = .ok (op.instruction w.x w.y) ∧
      ∃ r c : UInt8, (c = 0 ∨ c = 1) ∧ op.Exact a.toNat b.toNat r.toNat c.toNat ∧
        m'.registers.get 0xF = c ∧ (w.x ≠ 0xF → m'.registers.get w.x = r) ∧
        ∀ z : UInt8, z.toNat < 16 → z ≠ w.x → z ≠ 0xF →
          m'.registers.get z = m.registers.get z) ∧
    ∀ v, w.assigned? a b = some v →
      (∃ i, m.cycle.1 = .ok i) ∧ m'.registers.get w.x = v ∧
      ∀ z : UInt8, z.toNat < 16 → z ≠ w.x → m'.registers.get z = m.registers.get z := by
  intro m' a b
  constructor
  · intro op hkind hn
    have hexec := m.advanced.execute_arithmetic m.registers.pc w op w.x w.y
    have hcycle := hw.cycle_eq (decode?_of_code hkind hn) hexec
    have hregisters : m'.registers =
        (m.registers.advance.put w.x (op.result a b)).setFlag (op.flagged a b) :=
      congrArg (·.2.registers) hcycle
    refine ⟨congrArg Prod.fst hcycle, op.result a b, if op.flagged a b then 1 else 0, ?_, ?_, ?_,
      fun hx => ?_, fun z hz hne hf => ?_⟩
    · split
      · exact .inr rfl
      · exact .inl rfl
    · exact op.exact a b
    · rw [hregisters, Registers.get_flag_setFlag]
    · rw [hregisters, Registers.get_result_outcome _ _ _ w.x_lt hx]
    · rw [hregisters, Registers.get_other_outcome _ _ _ w.x_lt hz hne hf]
      rfl
  · intro v hv
    obtain ⟨i, hd, hexec⟩ := exists_decode?_of_assigned (m := m.advanced) hv m.registers.pc
    have hcycle := hw.cycle_eq hd hexec
    have hregisters : m'.registers = m.registers.advance.put w.x v :=
      congrArg (·.2.registers) hcycle
    refine ⟨⟨i, congrArg Prod.fst hcycle⟩, ?_, fun z hz hne => ?_⟩
    · rw [hregisters, Registers.get_put_self]
    · rw [hregisters, Registers.get_put_of_ne _ _ w.x_lt hz hne]
      rfl

/-- `VF` doubled into itself keeps the carry, and a constant added to it leaves the sum. -/
theorem arithmetic_exact_flag :
    let m (hi lo : UInt8) : Machine := { ofSeed 7 with
      memory := Memory.powerOn.store 0x200 [hi, lo]
      registers := Registers.powerOn.put 0xF 0xC0 }
    ((m 0x8F 0xF4).Finds ⟨0x8FF4⟩ ∧ (m 0x8F 0xF4).cycle.2.registers.get 0xF = 1) ∧
    (m 0x7F 0x42).Finds ⟨0x7F42⟩ ∧ (m 0x7F 0x42).cycle.2.registers.get 0xF = 0x02 := by
  intro m
  have hfinds (hi lo : UInt8) : (m hi lo).Finds (.ofBytes hi lo) :=
    finds_of_store rfl (show Registers.powerOn.pc.toNat ≤ 0xFFE by decide) rfl
  refine ⟨⟨hfinds 0x8F 0xF4, ?_⟩, hfinds 0x7F 0x42, ?_⟩
  · obtain ⟨harith, -⟩ := arithmetic_exact (hfinds 0x8F 0xF4)
    obtain ⟨-, r, c, hc, hexact, hflag, -⟩ := harith .add rfl rfl
    -- the equation leaves no choice: twice `0xC0` has no room in a byte
    have hr := r.toNat_lt
    have hsum : (0xC0 : Int) + 0xC0 = r.toNat + 256 * c.toNat := hexact
    rcases hc with rfl | rfl
    · rw [UInt8.toNat_zero] at hsum
      omega
    · exact hflag
  · obtain ⟨-, hassign⟩ := arithmetic_exact (hfinds 0x7F 0x42)
    exact (hassign 0x02 (by decide)).2.1

end Machine

end ChipEight
