import ChipEight.Proofs.Bounds
import ChipEight.Proofs.CallNesting

/-!
# Where a program goes on

The program counter moves twice in a cycle: past the word when it is fetched, and again
if the instruction jumps or skips. `Machine.successor?` says where it is in the end, as a
function of the instruction and of the machine before the cycle. It is a number, so
nothing wraps, and it makes no difference between even and odd addresses.

Of the three pairs of skips, the two of a pair ask for opposite things
(`Instruction.Opposes`). Given the same registers and keys, one of them skips and the
other falls through.

A blocked key wait has been passed when it was fetched. It is left with the counter
where it is, and no cycle before that moves it.
-/

namespace ChipEight

/-- Two skips with the same operands of which one asks for what the other rules out. -/
inductive Instruction.Opposes : Instruction → Instruction → Prop where
  | byte (x nn : UInt8) : Opposes (.skipEqByte x nn) (.skipNeByte x nn)
  | register (x y : UInt8) : Opposes (.skipEqReg x y) (.skipNeReg x y)
  | key (x : UInt8) : Opposes (.skipPressed x) (.skipReleased x)

theorem Instruction.Opposes.ne_waitKey {i j : Instruction} (h : i.Opposes j) :
    (∀ x, i ≠ .waitKey x) ∧ ∀ x, j ≠ .waitKey x := by
  cases h <;> exact ⟨nofun, nofun⟩

theorem Registers.toNat_pc_skipIf {r : Registers} (h : r.pc.toNat + 2 < 0x10000) (c : Bool) :
    (r.skipIf c).pc.toNat = r.pc.toNat + if c then 2 else 0 := by
  cases c with
  | false => rfl
  | true => exact toNat_pc_advance h

namespace Machine

/-! ## The next instruction -/

/-- Whether an instruction passes over the one after it. -/
def skips (m : Machine) : Instruction → Bool
  | .skipEqByte x nn => m.registers.get x == nn
  | .skipNeByte x nn => m.registers.get x != nn
  | .skipEqReg x y => m.registers.get x == m.registers.get y
  | .skipNeReg x y => m.registers.get x != m.registers.get y
  | .skipPressed x => m.keypad.isDown (m.registers.get x).toNat
  | .skipReleased x => !m.keypad.isDown (m.registers.get x).toNat
  | _ => false

/-- Where a program goes on after the instruction at the program counter. A return goes to the live
address that was added last. -/
def successor? (m : Machine) : Instruction → Option Nat
  | .jump addr | .call addr => some addr.toNat
  | .ret => m.registers.stack.live.getLast?.map UInt16.toNat
  | .jumpOffset addr => some (addr.toNat + (m.registers.get 0).toNat)
  | i => some (m.registers.pc.toNat + if m.skips i then 4 else 2)

theorem skips_of_opposes {m n : Machine} {i j : Instruction} (h : i.Opposes j)
    (hv : n.registers.v = m.registers.v) (hk : n.keypad = m.keypad) : n.skips j = !m.skips i := by
  have hget : ∀ x, n.registers.get x = m.registers.get x := fun x => by
    rw [Registers.get, hv]
    rfl
  cases h with
  | byte x nn => simp only [skips, hget, bne]
  | register x y => simp only [skips, hget, bne]
  | key x => simp only [skips, hget, hk]

section

variable {m m' : Machine} {i : Instruction}

theorem toNat_pc_advanced (hpc : m.registers.pc.toNat ≤ 0xFFE) :
    m.advanced.registers.pc.toNat = m.registers.pc.toNat + 2 :=
  Registers.toNat_pc_advance (by omega)

/-- An instruction that does not move the counter. -/
theorem successor?_of_steady (hpc : m.registers.pc.toNat ≤ 0xFFE)
    (hi : m.successor? i = some (m.registers.pc.toNat + 2))
    (h : m'.registers.pc = m.advanced.registers.pc) :
    m.successor? i = some m'.registers.pc.toNat := by
  rw [hi, h, toNat_pc_advanced hpc]

/-- A skip, taken or not. -/
theorem successor?_of_skip (hpc : m.registers.pc.toNat ≤ 0xFFE) {c : Bool}
    (hi : m.successor? i = some (m.registers.pc.toNat + if c then 4 else 2)) :
    m.successor? i =
      some (m.advanced.withRegisters (m.advanced.registers.skipIf c)).registers.pc.toNat := by
  have hadvanced := toNat_pc_advanced hpc
  rw [hi, withRegisters, Registers.toNat_pc_skipIf (by omega), hadvanced]
  cases c <;> rfl

/-- **What each instruction does to the counter.** -/
theorem successor?_of_executed (hpc : m.registers.pc.toNat ≤ 0xFFE) (hi : i.InRange)
    (hret : i ≠ .ret) (he : m.advanced.execute m.registers.pc m.word i = (.ok (), m')) :
    m.successor? i = some m'.registers.pc.toNat := by
  cases i with
  | ret => exact absurd rfl hret
  | jump addr =>
      cases he
      rfl
  | call addr =>
      simp only [execute] at he
      split at he
      · cases he
        rfl
      · cases he
  | jumpOffset addr =>
      cases he
      exact congrArg some (toNat_jumpOffset hi _).symm
  | skipEqByte _ _ | skipNeByte _ _ | skipEqReg _ _ | skipNeReg _ _ =>
      cases he
      exact successor?_of_skip hpc rfl
  | skipPressed x | skipReleased x =>
      obtain ⟨-, rfl⟩ := asking_ok he
      exact successor?_of_skip hpc rfl
  | draw x y n =>
      obtain ⟨-, rfl⟩ := reading_ok he
      exact successor?_of_steady hpc rfl rfl
  | loadRegisters x =>
      obtain ⟨-, rfl⟩ := reading_ok he
      exact successor?_of_steady hpc rfl (by simp [withRegisters])
  | storeDecimal x | storeRegisters x =>
      obtain ⟨-, rfl⟩ := writing_ok he
      exact successor?_of_steady hpc rfl rfl
  | waitKey x =>
      simp only [execute] at he
      -- the wait is over at once, or the machine blocks past it
      split at he
      · cases he
        exact successor?_of_steady hpc rfl rfl
      · cases he
        exact successor?_of_steady hpc rfl rfl
  | _ =>
      cases he
      exact successor?_of_steady hpc rfl rfl

/-- A return goes to the address that it takes off the stack. -/
theorem successor?_of_returned (h : m.cycle = (.ok .ret, m')) :
    m.successor? .ret = some m'.registers.pc.toNat := by
  have hlast : m.registers.stack.live.getLast? = some m'.registers.pc := by
    rw [live_of_returned h, List.getLast?_concat]
  exact congrArg (Option.map UInt16.toNat) hlast

/-- **A cycle goes where its instruction says.** -/
theorem successor?_of_cycle (hs : m.status = .running) (h : m.cycle = (.ok i, m')) :
    m.word.decode? = some i ∧ m.successor? i = some m'.registers.pc.toNat := by
  cases cycled_of_eq h with
  | executed _ hpc hd he =>
      refine ⟨hd, ?_⟩
      by_cases hret : i = .ret
      · subst hret
        exact successor?_of_returned h
      · have hnext := successor?_of_executed hpc (Word.inRange_of_decode? hd) hret he
        exact hnext
  | released hw _ | blocked hw _ =>
      rw [hs] at hw
      cases hw

end

/-! ## Skips and key waits -/

theorem successor?_of_opposes (m n : Machine) {i j : Instruction} (h : i.Opposes j) :
    m.successor? i = some (m.registers.pc.toNat + if m.skips i then 4 else 2) ∧
      n.successor? j = some (n.registers.pc.toNat + if n.skips j then 4 else 2) := by
  cases h <;> exact ⟨rfl, rfl⟩

/-- What is no key wait was executed by a machine that runs. -/
theorem running_of_cycle {m m' : Machine} {i : Instruction} (h : m.cycle = (.ok i, m'))
    (hi : ∀ x, i ≠ .waitKey x) : m.status = .running := by
  cases cycled_of_eq h with
  | executed hs _ _ _ => exact hs
  | released _ _ | blocked _ _ => exact absurd rfl (hi _)

/-- No cycle of a blocked machine moves the counter, also not the one that ends the wait. -/
theorem pc_of_awaiting {m m' : Machine} {r : Except Fault Instruction} (hw : m.isAwaitingKey = true)
    (h : Cycled m r m') : m'.registers.pc = m.registers.pc := by
  rw [isAwaitingKey] at hw
  cases h with
  | released _ _ | blocked _ _ | stopped _ => rfl
  | unfetched hs _ | undecoded hs _ _ | refused hs _ _ _ | executed hs _ _ _ =>
      rw [hs] at hw
      cases hw

/--
**Where the program counter is after a cycle.**

A running machine that answers with an instruction has decoded it from the word at its
program counter, and goes on where the instruction says: at the address of a jump or a
call, at the live address that was added last, at `NNN + V0`, four bytes on if the
instruction skips, and two bytes on otherwise, also if it is a key wait that blocks. Of
two opposed skips, on the same registers and keys, one skips and the other falls through.
While a machine is blocked, no cycle moves the counter.
-/
theorem counter_follows_program :
    (∀ {m m' : Machine} {i : Instruction}, m.status = .running → m.cycle = (.ok i, m') →
      m.word.decode? = some i ∧ m.successor? i = some m'.registers.pc.toNat) ∧
    (∀ {m m' n n' : Machine} {i j : Instruction}, i.Opposes j →
      n.registers.v = m.registers.v → n.keypad = m.keypad →
      m.cycle = (.ok i, m') → n.cycle = (.ok j, n') →
        m'.registers.pc.toNat = m.registers.pc.toNat + 4 ∧
            n'.registers.pc.toNat = n.registers.pc.toNat + 2 ∨
          m'.registers.pc.toNat = m.registers.pc.toNat + 2 ∧
            n'.registers.pc.toNat = n.registers.pc.toNat + 4) ∧
    ∀ {m : Machine}, m.isAwaitingKey = true → m.cycle.2.registers.pc = m.registers.pc := by
  refine ⟨successor?_of_cycle, ?_, fun hw => pc_of_awaiting hw (cycle_cycled _)⟩
  intro m m' n n' i j hij hv hk hm hn
  obtain ⟨hi, hj⟩ := hij.ne_waitKey
  obtain ⟨-, hnext⟩ := successor?_of_cycle (running_of_cycle hm hi) hm
  obtain ⟨-, hnext'⟩ := successor?_of_cycle (running_of_cycle hn hj) hn
  obtain ⟨hskip, hskip'⟩ := successor?_of_opposes m n hij
  rw [hskip, Option.some.injEq] at hnext
  rw [hskip', Option.some.injEq, skips_of_opposes hij hv hk] at hnext'
  rw [← hnext, ← hnext']
  cases m.skips i with
  | false => exact .inr ⟨rfl, rfl⟩
  | true => exact .inl ⟨rfl, rfl⟩

/-- At an odd address near the end of memory: a jump that leaves memory, and the two skips that ask
for a key. A blocked machine ends its wait where it is. -/
theorem counter_follows_program_odd :
    let m (hi lo : UInt8) : Machine := { ofSeed 7 with
      memory := Memory.store ⟨Vector.replicate 4096 0⟩ 0xFFB [hi, lo]
      registers := { Registers.powerOn.put 0 0xFF with pc := 0xFFB }
      keypad := ⟨Vector.replicate 16 true⟩ }
    let blocked : Machine := { m 0 0 with status := .awaitingKey 1 0xFF9 }
    ((m 0xBF 0xFF).status = .running ∧
      (m 0xBF 0xFF).cycle = (.ok (.jumpOffset 0xFFF), (m 0xBF 0xFF).cycle.2) ∧
      (m 0xBF 0xFF).cycle.2.registers.pc.toNat = 0x10FE) ∧
    ((m 0xE1 0x9E).cycle = (.ok (.skipPressed 1), (m 0xE1 0x9E).cycle.2) ∧
      (m 0xE1 0xA1).cycle = (.ok (.skipReleased 1), (m 0xE1 0xA1).cycle.2) ∧
      (m 0xE1 0x9E).cycle.2.registers.pc.toNat = 0xFFF ∧
      (m 0xE1 0xA1).cycle.2.registers.pc.toNat = 0xFFD) ∧
    blocked.isAwaitingKey = true ∧ blocked.cycle.2.status = .running ∧
      blocked.cycle.2.registers.pc = 0xFFB := by
  intro m blocked
  -- one evaluation for all answers
  have hanswers : (m 0xBF 0xFF).cycle.1.toOption = some (.jumpOffset 0xFFF) ∧
      (m 0xE1 0x9E).cycle.1.toOption = some (.skipPressed 1) ∧
      (m 0xE1 0xA1).cycle.1.toOption = some (.skipReleased 1) ∧
      (m 0xE1 0x9E).successor? (.skipPressed 1) = some 0xFFF ∧
      blocked.cycle.2.status = .running := by
    decide +kernel
  obtain ⟨hjump, hpressed, hreleased, hsucc, hrunning⟩ := hanswers
  obtain ⟨hnext, hopposes, hwait⟩ := counter_follows_program
  have hpc := (hnext rfl (cycle_eq_ok hpressed)).2
  have hpair := hopposes (m := m 0xE1 0x9E) (n := m 0xE1 0xA1) (.key 1) rfl rfl
    (cycle_eq_ok hpressed) (cycle_eq_ok hreleased)
  refine ⟨⟨rfl, cycle_eq_ok hjump, ?_⟩, ⟨cycle_eq_ok hpressed, cycle_eq_ok hreleased, ?_⟩, rfl,
    hrunning, hwait rfl⟩
  · exact (Option.some.inj (hnext rfl (cycle_eq_ok hjump)).2).symm
  · rcases hpair with h | h
    · exact h
    · -- the key is down, so it is the other one that falls through
      rw [hsucc, h.1] at hpc
      exact absurd (Option.some.inj hpc) (by decide)

end Machine

end ChipEight
