import ChipEight.Proofs.CallNesting
import ChipEight.Proofs.Draws
import ChipEight.Proofs.Repaint

/-!
# What an instruction may change

Every instruction has a footprint: the bytes that it stores at `I`, the registers that
it writes, and the few other parts of the machine that it is made for. A footprint is
read off the instruction alone. `Machine.Confined` says that everything outside of it is
as it was, and that the cycle is counted and its instruction recorded.

A blocked key wait is no exception. The cycle that ends it writes the register of the
key wait and makes the machine run again, and that is within the footprint of a key wait.

Only the program counter is left out, since every instruction moves it.
-/

namespace ChipEight

/-! ## Footprints -/

namespace Instruction

/-- How many bytes from `I` on an instruction may change. -/
def stored : Instruction → Nat
  | storeDecimal _ => 3
  | storeRegisters x => x.toNat + 1
  | _ => 0

/-- Whether an instruction puts an address into `I`. -/
def setsIndex : Instruction → Bool
  | setIndex _ | addIndex _ | fontIndex _ | storeRegisters _ | loadRegisters _ => true
  | _ => false

/-- Whether an instruction may change a `V` register. -/
def writes : Instruction → Fin 16 → Bool
  | loadByte x _, k | addByte x _, k | copy x _, k | or x _, k | and x _, k | xor x _, k
  | random x _, k | waitKey x, k | readDelay x, k => k == Registers.slot x
  | add x _, k | sub x _, k | shiftRight x _, k | subFrom x _, k | shiftLeft x _, k =>
    k == Registers.slot x || k == Registers.slot Registers.flag
  | draw _ _ _, k => k == Registers.slot Registers.flag
  | loadRegisters x, k => k ≤ Registers.slot x
  | _, _ => false

end Instruction

/-! ## The register file -/

namespace Registers

/-- `r.Confined i r'`: from `r` to `r'` the `V` registers, `I` and the timers have changed only as
far as the instruction `i` may change them. -/
structure Confined (r : Registers) (i : Instruction) (r' : Registers) : Prop where
  /-- Registers that `i` does not write. -/
  v : ∀ z, i.writes (slot z) = false → r'.get z = r.get z
  /-- The index register. -/
  index : i.setsIndex = false → r'.i = r.i
  /-- The delay timer. -/
  delay : (∀ x, i ≠ .setDelay x) → r'.delay = r.delay
  /-- The sound timer. -/
  sound : (∀ x, i ≠ .setSound x) → r'.sound = r.sound

variable {r r' r'' : Registers} {i : Instruction}

theorem Confined.trans (h : r.Confined i r') (h' : r'.Confined i r'') : r.Confined i r'' where
  v z hz := (h'.v z hz).trans (h.v z hz)
  index hi := (h'.index hi).trans (h.index hi)
  delay hi := (h'.delay hi).trans (h.delay hi)
  sound hi := (h'.sound hi).trans (h.sound hi)

/-- Moving the program counter or using the stack changes none of these. -/
theorem confined_of_eq (hv : r'.v = r.v) (hi : r'.i = r.i) (hd : r'.delay = r.delay)
    (hs : r'.sound = r.sound) : r.Confined i r' where
  v z _ := by rw [get, hv, ← get]
  index _ := hi
  delay _ := hd
  sound _ := hs

theorem confined_skipIf (r : Registers) (i : Instruction) (c : Bool) :
    r.Confined i (r.skipIf c) := by
  cases c with
  | false => exact confined_of_eq rfl rfl rfl rfl
  | true => exact confined_of_eq rfl rfl rfl rfl

theorem confined_push {addr : UInt16} (h : r.push addr = .ok r') : r.Confined i r' := by
  rw [push] at h
  split at h
  · cases h
    exact confined_of_eq rfl rfl rfl rfl
  · cases h

theorem confined_pop {addr : UInt16} (h : r.pop = .ok (addr, r')) : r.Confined i r' := by
  rw [pop] at h
  split at h
  · cases h
    exact confined_of_eq rfl rfl rfl rfl
  · cases h

theorem confined_put (r : Registers) {x : UInt8} (a : UInt8) (h : i.writes (slot x) = true) :
    r.Confined i (r.put x a) where
  v z hz := by
    have hne : slot x ≠ slot z := fun he => by
      rw [he, hz] at h
      cases h
    rw [get_put, if_neg hne]
  index _ := rfl
  delay _ := rfl
  sound _ := rfl

/-- A result and a flag. -/
theorem confined_outcome (r : Registers) {x : UInt8} (a : UInt8) (c : Bool)
    (hx : i.writes (slot x) = true) (hf : i.writes (slot flag) = true) :
    r.Confined i ((r.put x a).setFlag c) :=
  (r.confined_put a hx).trans ((r.put x a).confined_put _ hf)

/-- Bytes go into as many registers as there are bytes. -/
theorem confined_fill (r : Registers) {values : List UInt8}
    (h : ∀ k : Fin 16, k.val < values.length → i.writes k = true) :
    r.Confined i (r.fill values) where
  v z hz := by
    have hlen : values.length ≤ (slot z).val := Nat.not_lt.mp fun hlt => by
      rw [h _ hlt] at hz
      cases hz
    rw [get_fill, List.getElem?_eq_none hlen, Option.getD_none]
  index _ := by simp only [fill]
  delay _ := by simp only [fill]
  sound _ := by simp only [fill]

theorem confined_index (r : Registers) (a : UInt16) (h : i.setsIndex = true) :
    r.Confined i { r with i := a } where
  v _ _ := rfl
  index hi := by
    rw [h] at hi
    cases hi
  delay _ := rfl
  sound _ := rfl

end Registers

namespace Machine

/-! ## One instruction -/

section

variable {m m' : Machine} {a : UInt16} {w : Word} {i : Instruction}

/-- **An instruction keeps to its footprint in the register file.** -/
theorem execute_registers (h : m.execute a w i = (.ok (), m')) :
    m.registers.Confined i m'.registers := by
  cases i with
  | clear | jump | jumpOffset =>
      cases h
      exact Registers.confined_of_eq rfl rfl rfl rfl
  | ret =>
      simp only [execute] at h
      split at h
      · rename_i hp
        cases h
        exact (Registers.confined_pop hp).trans (Registers.confined_of_eq rfl rfl rfl rfl)
      · cases h
  | call addr =>
      simp only [execute] at h
      split at h
      · rename_i hp
        cases h
        exact (Registers.confined_push hp).trans (Registers.confined_of_eq rfl rfl rfl rfl)
      · cases h
  | skipEqByte | skipNeByte | skipEqReg | skipNeReg =>
      cases h
      exact m.registers.confined_skipIf _ _
  | skipPressed | skipReleased =>
      obtain ⟨-, rfl⟩ := asking_ok h
      exact m.registers.confined_skipIf _ _
  | loadByte | addByte | copy | or | and | xor | random | readDelay =>
      cases h
      exact m.registers.confined_put _ (beq_self_eq_true _)
  | add | sub | shiftRight | subFrom | shiftLeft =>
      cases h
      refine m.registers.confined_outcome _ _ ?_ ?_ <;> simp [Instruction.writes]
  | draw x y n =>
      obtain ⟨-, rfl⟩ := reading_ok h
      exact m.registers.confined_put _ rfl
  | setIndex | addIndex | fontIndex =>
      cases h
      exact m.registers.confined_index _ rfl
  | storeDecimal x =>
      obtain ⟨-, rfl⟩ := writing_ok h
      exact Registers.confined_of_eq rfl rfl rfl rfl
  | storeRegisters x =>
      obtain ⟨-, rfl⟩ := writing_ok h
      exact m.registers.confined_index _ rfl
  | loadRegisters x =>
      obtain ⟨-, rfl⟩ := reading_ok h
      have hfill : m.registers.Confined (.loadRegisters x) (m.registers.fill
          (m.memory.span m.registers.i.toNat (m.registers.upTo x).length)) := by
        -- as many bytes are read as there are registers up to `VX`
        refine m.registers.confined_fill fun k hk => ?_
        rw [Memory.length_span, Registers.length_upTo_slot] at hk
        exact decide_eq_true (Nat.le_of_lt_succ hk)
      exact hfill.trans (Registers.confined_index _ _ rfl)
  | waitKey x =>
      simp only [execute] at h
      split at h
      · cases h
        exact m.registers.confined_put _ (beq_self_eq_true _)
      · cases h
        exact Registers.confined_of_eq rfl rfl rfl rfl
  | setDelay x =>
      cases h
      exact ⟨fun _ _ => rfl, fun _ => rfl, fun hi => absurd rfl (hi x), fun _ => rfl⟩
  | setSound x =>
      cases h
      exact ⟨fun _ _ => rfl, fun _ => rfl, fun _ => rfl, fun hi => absurd rfl (hi x)⟩

/-- **An instruction keeps to its footprint in memory.** -/
theorem execute_memory (h : m.execute a w i = (.ok (), m')) {b : Nat}
    (hb : b < m.registers.i.toNat ∨ m.registers.i.toNat + i.stored ≤ b) :
    m'.memory.byte b = m.memory.byte b := by
  cases i with
  | storeDecimal x =>
      obtain ⟨-, rfl⟩ := writing_ok h
      exact m.memory.byte_store_of_outside hb
  | storeRegisters x =>
      obtain ⟨-, rfl⟩ := writing_ok h
      -- the footprint counts up to `x`, the list only up to its low nibble
      have hlen := m.registers.length_upTo_slot x
      have hslot : (Registers.slot x).val ≤ x.toNat := Nat.mod_le _ _
      simp only [Instruction.stored] at hb
      exact m.memory.byte_store_of_outside (by omega)
  | draw x y n =>
      obtain ⟨-, rfl⟩ := reading_ok h
      rfl
  | loadRegisters x =>
      obtain ⟨-, rfl⟩ := reading_ok h
      simp only [withRegisters]
  | skipPressed | skipReleased =>
      obtain ⟨-, rfl⟩ := asking_ok h
      rfl
  | ret | call | waitKey =>
      simp only [execute] at h
      split at h <;> cases h <;> rfl
  | _ =>
      cases h
      rfl

end

/-! ## One cycle -/

/-- `m.Confined i m'`: from `m` to `m'` nothing has changed but what a cycle with the instruction
`i` may change. -/
structure Confined (m : Machine) (i : Instruction) (m' : Machine) : Prop where
  /-- Bytes outside of those that are stored at `I`. -/
  memory : ∀ b, b < m.registers.i.toNat ∨ m.registers.i.toNat + i.stored ≤ b →
    m'.memory.byte b = m.memory.byte b
  /-- The pixels and the repaint mark. -/
  screen : i.paints = false → m'.screen = m.screen
  /-- `V0` to `VF`, `I` and the timers. -/
  registers : m.registers.Confined i m'.registers
  /-- All slots of the stack and its depth. -/
  stack : (∀ addr, i ≠ .call addr) → i ≠ .ret → m'.registers.stack = m.registers.stack
  /-- The place in the random stream. -/
  random : i.draws = false → m'.random = m.random
  /-- Whether the machine runs or waits. -/
  status : (∀ x, i ≠ .waitKey x) → m'.status = m.status
  /-- No instruction presses a key. -/
  keypad : m'.keypad = m.keypad
  /-- The cycle is counted. -/
  cycles : m'.cycles = m.cycles + 1
  /-- The instruction is recorded. -/
  lastInstruction : m'.lastInstruction = some i

theorem screen_of_unpainted {m m' : Machine} {i : Instruction} (h : m.cycle = (.ok i, m'))
    (hp : i.paints = false) : m'.screen = m.screen := by
  rcases screen_of_executed h with ⟨hpaints, -⟩ | ⟨-, hs⟩
  · rw [hp] at hpaints
    cases hpaints
  · exact hs

/--
**A cycle changes nothing outside the footprint of its instruction.**

This holds for every machine and every cycle that answers with an instruction, also for
the cycles of a blocked key wait.
-/
theorem cycle_confined {m m' : Machine} {i : Instruction} (h : m.cycle = (.ok i, m')) :
    m.Confined i m' := by
  have hscreen := screen_of_unpainted h
  have hcycled := cycled_of_eq h
  have hrandom (hi : i.draws = false) : m'.random = m.random :=
    random_of_undrawn hcycled fun j hj => by rwa [← Except.ok.inj hj]
  cases hcycled with
  | @executed i m₁ _ _ _ he =>
      have hpassed : m.registers.Confined i m.advanced.registers :=
        Registers.confined_of_eq rfl rfl rfl rfl
      have hregisters := hpassed.trans (execute_registers he)
      have hframe := m.advanced.execute_frame m.registers.pc m.word i
      have hstack := m.advanced.execute_stack m.registers.pc m.word (i := i)
      rw [he] at hframe hstack
      obtain ⟨hkeypad, -, hcycles, -, hstatus⟩ := hframe
      exact {
        memory := fun b hb => execute_memory he hb
        screen := hscreen
        registers := hregisters
        stack := hstack
        random := hrandom
        status := hstatus
        keypad := hkeypad
        cycles := congrArg (· + 1) hcycles
        lastInstruction := rfl }
  | @released x _ _ _ _ =>
      exact {
        memory := fun _ _ => rfl
        screen := hscreen
        registers := m.registers.confined_put _ (beq_self_eq_true _)
        stack := fun _ _ => rfl
        random := hrandom
        status := fun hi => absurd rfl (hi x)
        keypad := rfl
        cycles := rfl
        lastInstruction := rfl }
  | blocked _ _ =>
      exact {
        memory := fun _ _ => rfl
        screen := hscreen
        registers := Registers.confined_of_eq rfl rfl rfl rfl
        stack := fun _ _ => rfl
        random := hrandom
        status := fun _ => rfl
        keypad := rfl
        cycles := rfl
        lastInstruction := rfl }

/-- Three registers are stored, and the byte after them stays. A key ends a wait, and the stack
and all registers but `V4` stay. -/
theorem cycle_confined_store :
    let m (hi lo : UInt8) : Machine := { ofSeed 7 with
      memory := (Memory.powerOn.store 0x200 [hi, lo]).store 0x303 [0xAB]
      registers := { Registers.powerOn with
        i := 0x300, v := Vector.replicate 16 0xCD, delay := 9, sound := 9 }
      keypad := ⟨(Vector.replicate 16 false).set 6 true⟩ }
    let blocked : Machine := { m 0 0 with status := .awaitingKey 4 0x200 }
    ((m 0xF2 0x55).cycle = (.ok (.storeRegisters 2), (m 0xF2 0x55).cycle.2) ∧
      (m 0xF2 0x55).cycle.2.memory.byte 0x302 = 0xCD ∧
      (m 0xF2 0x55).cycle.2.memory.byte 0x303 = 0xAB) ∧
    blocked.cycle = (.ok (.waitKey 4), blocked.cycle.2) ∧
      blocked.cycle.2.registers.get 4 = 6 ∧ blocked.cycle.2.registers.get 5 = 0xCD ∧
      blocked.cycle.2.cycles = blocked.cycles + 1 := by
  intro m blocked
  -- one evaluation for all answers
  have hanswers : (m 0xF2 0x55).cycle.1.toOption = some (.storeRegisters 2) ∧
      (m 0xF2 0x55).cycle.2.memory.byte 0x302 = 0xCD ∧
      (m 0xF2 0x55).memory.byte 0x303 = 0xAB ∧
      blocked.cycle.1.toOption = some (.waitKey 4) ∧
      blocked.cycle.2.registers.get 4 = 6 := by
    decide +kernel
  obtain ⟨hstore, hlast, hafter, hwait, hkey⟩ := hanswers
  have hconfined := cycle_confined (cycle_eq_ok hstore)
  have hblocked := cycle_confined (cycle_eq_ok hwait)
  refine ⟨⟨cycle_eq_ok hstore, hlast, ?_⟩, cycle_eq_ok hwait, hkey, ?_, hblocked.cycles⟩
  · rw [hconfined.memory 0x303 (.inr (by decide)), hafter]
  · exact hblocked.registers.v 5 (by decide)

end Machine

end ChipEight
