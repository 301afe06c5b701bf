import ChipEight.Proofs.Cycle
import ChipEight.Proofs.Runs

/-!
# Bounds on every reachable machine

How far the control part of a machine can stray. The program counter may leave
memory, but not by much: `BNNN` reaches at most `0xFFF + 0xFF`, and a skip at the
end of memory less than that. A return address is the end of a call that was
fetched, so it lies between `0x002` and `0x1000`. A blocked key wait remembers an
address inside memory, two before the counter.

The three bounds need each other. A return sends the counter to a live address,
a call makes an address of the counter, and a blocked wait is only left with the
counter where the wait put it. So they are one invariant, `Bounded`.
-/

namespace ChipEight.Machine

/-- Every live return address is the end of an instruction that lies in memory. -/
def ReturnsBounded (s : CallStack) : Prop :=
  ∀ a ∈ s.live, 0x002 ≤ a.toNat ∧ a.toNat ≤ 0x1000

/-- The bounds on the control part of a machine. -/
structure Bounded (m : Machine) : Prop where
  returns : ReturnsBounded m.registers.stack
  pc : m.registers.pc.toNat ≤ 0x10FE
  waiting : ∀ x a, m.status = .awaitingKey x a →
    x.toNat < 16 ∧ a.toNat ≤ 0xFFE ∧ m.registers.pc.toNat = a.toNat + 2

/-- A running machine that has fetched the word at `a` and moved past it. -/
structure Fetched (m : Machine) (a : UInt16) : Prop where
  running : m.status = .running
  returns : ReturnsBounded m.registers.stack
  address : a.toNat ≤ 0xFFE
  pc : m.registers.pc.toNat = a.toNat + 2

theorem Bounded.of_running {m : Machine} (hs : m.status = .running)
    (hr : ReturnsBounded m.registers.stack) (hpc : m.registers.pc.toNat ≤ 0x10FE) : Bounded m where
  returns := hr
  pc := hpc
  waiting := by intro x a h; rw [hs] at h; cases h

theorem Bounded.fetched {m : Machine} (h : Bounded m) (hs : m.status = .running)
    (hpc : m.registers.pc.toNat ≤ 0xFFE) : Fetched m.advanced m.registers.pc where
  running := hs
  returns := h.returns
  address := hpc
  pc := Registers.toNat_pc_advance (by omega)

/-! ## What an instruction does to the control part -/

theorem ReturnsBounded.push {s s' : CallStack} {a : UInt16} (h : ReturnsBounded s)
    (hs : s.push a = .ok s') (ha : 0x002 ≤ a.toNat ∧ a.toNat ≤ 0x1000) : ReturnsBounded s' := by
  intro b hb
  rw [CallStack.live_push hs] at hb
  rcases List.mem_append.mp hb with hb | hb
  · exact h b hb
  · rw [List.mem_singleton.mp hb]
    exact ha

theorem ReturnsBounded.pop {s s' : CallStack} {a : UInt16} (h : ReturnsBounded s)
    (hs : s.pop = .ok (a, s')) : ReturnsBounded s' ∧ 0x002 ≤ a.toNat ∧ a.toNat ≤ 0x1000 := by
  have hl := CallStack.live_pop hs
  refine ⟨fun b hb => h b ?_, h a ?_⟩
  · rw [hl]
    exact List.mem_append_left _ hb
  · rw [hl]
    exact List.mem_append_right _ (List.mem_singleton_self a)

/-- An instruction that leaves the counter, the stack and the status alone. -/
theorem Fetched.steady {m m' : Machine} {a : UInt16} (h : Fetched m a)
    (hpc : m'.registers.pc = m.registers.pc) (hr : m'.registers.stack = m.registers.stack)
    (hs : m'.status = m.status) : Bounded m' := by
  refine .of_running (hs.trans h.running) (hr ▸ h.returns) ?_
  rw [hpc, h.pc]
  have := h.address
  omega

/-- A skip, taken or not. -/
theorem Fetched.skip {m : Machine} {a : UInt16} (h : Fetched m a) (c : Bool) :
    Bounded (m.withRegisters (m.registers.skipIf c)) := by
  have := h.pc
  have := h.address
  cases c with
  | false => exact h.steady rfl rfl rfl
  | true =>
      refine .of_running h.running h.returns ?_
      rw [show (m.withRegisters (m.registers.skipIf true)).registers = m.registers.advance from rfl,
        Registers.toNat_pc_advance (by omega)]
      omega

theorem Fetched.jump {m : Machine} {a addr : UInt16} (h : Fetched m a)
    (haddr : addr.toNat ≤ 0x10FE) : Bounded (m.withRegisters (m.registers.jump addr)) :=
  .of_running h.running h.returns haddr

/-- `BNNN` does not wrap, because its address comes from a word. -/
theorem toNat_jumpOffset {addr : UInt16} (h : addr.toNat < 0x1000) (v : UInt8) :
    (addr + v.toUInt16).toNat = addr.toNat + v.toNat := by
  have := v.toNat_lt
  simp only [UInt16.toNat_add, UInt8.toNat_toUInt16]
  omega

/-- **Every instruction keeps the bounds.** -/
theorem Fetched.execute {m m' : Machine} {a : UInt16} {w : Word} {i : Instruction}
    (h : Fetched m a) (hi : i.InRange) (he : m.execute a w i = (.ok (), m')) : Bounded m' := by
  have hpc := h.pc
  have ha := h.address
  cases i with
  | clear =>
      cases he
      exact h.steady rfl rfl rfl
  | draw x y n =>
      obtain ⟨_, rfl⟩ := reading_ok he
      exact h.steady rfl rfl rfl
  | ret =>
      simp only [Machine.execute, Registers.pop] at he
      split at he
      · rename_i hp
        split at hp
        · rename_i hs
          cases hp
          cases he
          -- the counter becomes an address that was live
          obtain ⟨hr, hb⟩ := h.returns.pop hs
          refine .of_running h.running hr ?_
          exact Nat.le_trans hb.2 (by decide)
        · cases hp
      · cases he
  | jump addr =>
      cases he
      exact h.jump (Nat.le_trans (Nat.le_of_lt hi) (by decide))
  | call addr =>
      simp only [Machine.execute, Registers.push] at he
      split at he
      · rename_i hp
        split at hp
        · rename_i hs
          cases hp
          cases he
          -- the counter, two past the call, becomes live
          refine .of_running h.running (h.returns.push hs (by omega)) ?_
          exact Nat.le_trans (Nat.le_of_lt hi) (by decide)
        · cases hp
      · cases he
  | jumpOffset addr =>
      cases he
      -- the farthest any instruction goes, and the bound on the counter: `0xFFF + 0xFF`
      refine h.jump ?_
      have hv := (m.registers.get 0).toNat_lt
      have hlt : addr.toNat < 0x1000 := hi
      rw [toNat_jumpOffset hlt]
      omega
  | skipEqByte _ _ | skipNeByte _ _ | skipEqReg _ _ | skipNeReg _ _ =>
      cases he
      exact h.skip _
  | storeDecimal x | storeRegisters x =>
      obtain ⟨_, rfl⟩ := writing_ok he
      exact h.steady rfl rfl rfl
  | loadRegisters x =>
      obtain ⟨_, rfl⟩ := reading_ok he
      exact h.steady (by simp [withRegisters]) (by simp [withRegisters]) (by simp [withRegisters])
  | skipPressed x | skipReleased x =>
      obtain ⟨_, rfl⟩ := asking_ok he
      exact h.skip _
  | waitKey x =>
      simp only [Machine.execute] at he
      split at he
      · cases he
        exact h.steady rfl rfl rfl
      · cases he
        -- the wait that blocks: the only instruction that changes the status
        refine ⟨h.returns, by rw [hpc]; omega, ?_⟩
        intro y b hs
        cases hs
        exact ⟨hi, ha, hpc⟩
  | _ =>
      cases he
      exact h.steady rfl rfl rfl

/-! ## Every reachable machine -/

theorem bounded_powerOn (random : KeyStream) (seed : Option UInt64) :
    Bounded (powerOn random seed) where
  returns := by
    intro a ha
    rw [show (powerOn random seed).registers.stack.live = [] from rfl] at ha
    cases ha
  pc := show Registers.powerOn.pc.toNat ≤ 0x10FE by decide
  waiting := by intro x a h; cases h

/-- A machine that only faulted, counted or recorded keeps its bounds. -/
theorem Bounded.of_pc_le {m m' : Machine} (h : Bounded m) (hs : ∀ x a, m'.status ≠ .awaitingKey x a)
    (hr : m'.registers.stack = m.registers.stack) (hpc : m'.registers.pc.toNat ≤ 0x10FE) :
    Bounded m' where
  returns := hr ▸ h.returns
  pc := hpc
  waiting := fun x a h => absurd h (hs x a)

/-- **The bounds are kept by every cycle.** -/
theorem Bounded.cycled {m m' : Machine} {r : Except Fault Instruction} (h : Bounded m)
    (hc : Cycled m r m') : Bounded m' := by
  cases hc with
  | unfetched _ _ => exact h.of_pc_le (fun _ _ hs => by cases hs) rfl h.pc
  | undecoded hs hpc _ =>
      have hf := h.fetched hs hpc
      refine h.of_pc_le (fun _ _ hs => by cases hs) rfl ?_
      rw [show m.advanced.halt.registers = m.advanced.registers from rfl, hf.pc]
      omega
  | refused hs hpc hd he =>
      have hf := h.fetched hs hpc
      -- what the fault left is the machine past the word
      obtain ⟨_, rfl⟩ := (execute_eq_error_iff (Word.inRange_of_decode? hd)).mp he
      refine h.of_pc_le (fun _ _ hs => by cases hs) rfl ?_
      rw [show m.advanced.halt.registers = m.advanced.registers from rfl, hf.pc]
      omega
  | executed hs hpc hd he =>
      have hb := (h.fetched hs hpc).execute (Word.inRange_of_decode? hd) he
      exact ⟨hb.returns, hb.pc, hb.waiting⟩
  | released hs _ => exact h.of_pc_le (fun _ _ hs => by cases hs) rfl h.pc
  | blocked hs _ => exact ⟨h.returns, h.pc, h.waiting⟩
  | stopped _ => exact h

theorem bounded_kept : Kept Bounded where
  cycle h := h.cycled (cycle_cycled _)
  tick h := ⟨h.returns, h.pc, h.waiting⟩
  keypad _ h := ⟨h.returns, h.pc, h.waiting⟩
  settle h := ⟨h.returns, h.pc, h.waiting⟩
  memory _ h := ⟨h.returns, h.pc, h.waiting⟩
  reset _ := bounded_powerOn _ _

theorem bounded_reachable {seed : UInt64} {m : Machine} (h : Reachable seed m) : Bounded m :=
  bounded_kept.reachable (bounded_powerOn _ _) h

end ChipEight.Machine
