import ChipEight.Machine.Execution
import ChipEight.Proofs.Decoding

/-!
# One cycle

Everything a cycle can do, said once. `Cycled` lists the seven ways through a
cycle: three faults of a running machine, an executed instruction, the two turns
of a blocked key wait, and the refusal to run after a fault. `cycle_cycled` says
that the list is complete, so that a later proof about cycles is a case analysis
over it and never opens `cycle` again.

For the one branch that has content of its own, the execution of an instruction,
the module shows two things. An instruction is refused exactly when the machine
does not meet its demand, and a refused instruction leaves the machine untouched.
Both are in `execute_eq_error_iff`.
-/

namespace ChipEight

/-- A result that is not an error can be decided once it is an option. -/
theorem eq_ok_of_toOption {ε α : Type} {r : Except ε α} {a : α} (h : r.toOption = some a) :
    r = .ok a := by
  cases r <;> cases h
  rfl

/-! ## Registers a cycle moves -/

theorem Registers.exists_push {r : Registers} (addr : UInt16) (h : r.stack.depth < 16) :
    ∃ r', r.push addr = .ok r' := by
  simp [push, CallStack.push, h]

theorem Registers.exists_pop {r : Registers} (h : 0 < r.stack.depth) :
    ∃ addr r', r.pop = .ok (addr, r') := by
  simp [pop, CallStack.pop, h]

theorem Registers.toNat_pc_advance {r : Registers} (h : r.pc.toNat + 2 < 0x10000) :
    r.advance.pc.toNat = r.pc.toNat + 2 := by
  simp only [advance, UInt16.toNat_add, UInt16.reduceToNat]
  omega

@[simp] theorem Registers.skipIf_stack (r : Registers) (c : Bool) :
    (r.skipIf c).stack = r.stack := by
  cases c <;> rfl

namespace Machine

/-! ## The word at the program counter -/

/-- The word that a fetch reads. -/
def word (m : Machine) : Word :=
  .ofBytes (m.memory.byte m.registers.pc.toNat) (m.memory.byte (m.registers.pc.toNat + 1))

/-- The machine once the program counter has passed the word. -/
def advanced (m : Machine) : Machine :=
  m.withRegisters m.registers.advance

theorem readWord_of_le {m : Machine} (h : m.registers.pc.toNat ≤ 0xFFE) :
    m.memory.readWord m.registers.pc = .ok m.word := by
  have : m.registers.pc.toNat + 2 ≤ Memory.size := by simp only [Memory.size]; omega
  rw [Memory.readWord, if_pos this, word]

theorem readWord_of_lt {m : Machine} (h : 0xFFE < m.registers.pc.toNat) :
    m.memory.readWord m.registers.pc = .error (.outOfRange m.registers.pc 2) := by
  have : ¬m.registers.pc.toNat + 2 ≤ Memory.size := by simp only [Memory.size]; omega
  rw [Memory.readWord, if_neg this]

/-- A word that is read lies in memory, and is the one that a cycle fetches. -/
theorem le_of_readWord {m : Machine} {w : Word} (h : m.memory.readWord m.registers.pc = .ok w) :
    m.registers.pc.toNat ≤ 0xFFE ∧ m.word = w := by
  rcases Nat.lt_or_ge 0xFFE m.registers.pc.toNat with hpc | hpc
  · rw [readWord_of_lt hpc] at h
    cases h
  · rw [readWord_of_le hpc] at h
    cases h
    exact ⟨hpc, rfl⟩

/-- The word of a machine whose program starts with two given bytes. -/
theorem word_of_store {m : Machine} {memory : Memory} {hi lo : UInt8}
    (hpc : m.registers.pc.toNat ≤ 0xFFE)
    (h : m.memory = memory.store m.registers.pc.toNat [hi, lo]) : m.word = .ofBytes hi lo := by
  have hlo : m.registers.pc.toNat + 1 < Memory.size := by simp only [Memory.size]; omega
  have hhi : m.registers.pc.toNat < Memory.size := Nat.lt_of_succ_lt hlo
  rw [word, h]
  simp [Memory.byte_store, hlo, hhi]

/-! ## Every way through a cycle -/

/-- `Cycled m r m'`: a cycle of `m` may answer `r` and leave `m'`. -/
inductive Cycled (m : Machine) : Except Fault Instruction → Machine → Prop where
  | unfetched : m.status = .running → 0xFFE < m.registers.pc.toNat →
      Cycled m (.error (.fetch m.registers.pc (.outOfRange m.registers.pc 2))) m.halt
  | undecoded : m.status = .running → m.registers.pc.toNat ≤ 0xFFE → m.word.decode? = none →
      Cycled m (.error (.invalidOpcode m.registers.pc m.word)) m.advanced.halt
  | refused {i : Instruction} {e : Fault} {m' : Machine} :
      m.status = .running → m.registers.pc.toNat ≤ 0xFFE → m.word.decode? = some i →
      m.advanced.execute m.registers.pc m.word i = (.error e, m') →
      Cycled m (.error e) m'.halt
  | executed {i : Instruction} {m' : Machine} :
      m.status = .running → m.registers.pc.toNat ≤ 0xFFE → m.word.decode? = some i →
      m.advanced.execute m.registers.pc m.word i = (.ok (), m') →
      Cycled m (.ok i) (m'.record i)
  | released {x : UInt8} {a : UInt16} {key : Nat} :
      m.status = .awaitingKey x a → m.keypad.first? = some key →
      Cycled m (.ok (.waitKey x))
        ({ m with registers := m.registers.put x (UInt8.ofNat key), status := .running }.record
          (.waitKey x))
  | blocked {x : UInt8} {a : UInt16} :
      m.status = .awaitingKey x a → m.keypad.first? = none →
      Cycled m (.ok (.waitKey x)) (m.record (.waitKey x))
  | stopped : m.status = .faulted → Cycled m (.error (.notRunning .faulted)) m

/-- **There is no other way through a cycle.** -/
theorem cycle_cycled (m : Machine) : Cycled m m.cycle.1 m.cycle.2 := by
  unfold cycle
  cases hs : m.status with
  | running =>
      dsimp only [fetchExecute]
      rcases Nat.lt_or_ge 0xFFE m.registers.pc.toNat with hpc | hpc
      · rw [readWord_of_lt hpc]
        exact .unfetched hs hpc
      · rw [readWord_of_le hpc]
        dsimp only
        rw [← advanced]
        cases hd : m.word.decode? with
        | none => exact .undecoded hs hpc hd
        | some i =>
            dsimp only
            -- the instruction is opaque here: only its answer matters
            split
            · rename_i e m' he
              exact .refused hs hpc hd he
            · rename_i m' he
              exact .executed hs hpc hd he
  | awaitingKey x a =>
      dsimp only [pollKey]
      cases hk : m.keypad.first? with
      | none => exact .blocked hs hk
      | some key => exact .released hs hk
  | faulted => exact .stopped hs

theorem cycled_of_eq {m m' : Machine} {r : Except Fault Instruction} (h : m.cycle = (r, m')) :
    Cycled m r m' := by
  have := cycle_cycled m
  rwa [h] at this

/-- **What a cycle may do, it does.** No two ways through a cycle are open at once. -/
theorem Cycled.cycle_eq {m m' : Machine} {r : Except Fault Instruction} (h : Cycled m r m') :
    m.cycle = (r, m') := by
  cases h with
  | unfetched hs hpc => simp only [cycle, hs, fetchExecute, readWord_of_lt hpc]
  | undecoded hs hpc hd =>
      simp only [cycle, hs, fetchExecute, readWord_of_le hpc, hd]
      rfl
  | refused hs hpc hd he | executed hs hpc hd he =>
      rw [advanced] at he
      simp only [cycle, hs, fetchExecute, readWord_of_le hpc, hd, he]
  | released hs hk | blocked hs hk => simp only [cycle, hs, pollKey, hk]
  | stopped hs => simp only [cycle, hs]

/-- `m.Finds w`: the machine runs, and `w` is the word that it executes next. -/
structure Finds (m : Machine) (w : Word) : Prop where
  running : m.status = .running
  fetched : m.memory.readWord m.registers.pc = .ok w

/-- An instruction that is found and not refused is the answer of the cycle. -/
theorem Finds.cycle_eq {m m' : Machine} {w : Word} {i : Instruction} (h : m.Finds w)
    (hd : w.decode? = some i) (he : m.advanced.execute m.registers.pc w i = accept m') :
    m.cycle = (.ok i, m'.record i) := by
  obtain ⟨hpc, rfl⟩ := le_of_readWord h.fetched
  exact (Cycled.executed h.running hpc hd he).cycle_eq

theorem finds_of_store {m : Machine} {memory : Memory} {hi lo : UInt8} (hs : m.status = .running)
    (hpc : m.registers.pc.toNat ≤ 0xFFE)
    (h : m.memory = memory.store m.registers.pc.toNat [hi, lo]) : m.Finds (.ofBytes hi lo) where
  running := hs
  fetched := by rw [readWord_of_le hpc, word_of_store hpc h]

theorem cycled_of_answer {m : Machine} {r : Except Fault Instruction} (h : m.cycle.1 = r) :
    ∃ m', Cycled m r m' :=
  ⟨m.cycle.2, h ▸ cycle_cycled m⟩

theorem cycle_eq_ok {m : Machine} {i : Instruction} (h : m.cycle.1.toOption = some i) :
    m.cycle = (.ok i, m.cycle.2) :=
  Prod.ext (eq_ok_of_toOption h) rfl

/-! ## What decides a refusal -/

theorem reading_of_le {m : Machine} {a : UInt16} {w : Word} {len : Nat}
    {act : List UInt8 → Machine} (h : m.registers.i.toNat + len ≤ 4096) :
    m.reading a w len act = accept (act (m.memory.span m.registers.i.toNat len)) := by
  rw [reading, Memory.slice, if_pos (show _ ≤ Memory.size from h)]

theorem reading_of_lt {m : Machine} {a : UInt16} {w : Word} {len : Nat}
    {act : List UInt8 → Machine} (h : 4096 < m.registers.i.toNat + len) :
    m.reading a w len act = m.refuse (.memory a w (.outOfRange m.registers.i len)) := by
  have : ¬m.registers.i.toNat + len ≤ Memory.size := Nat.not_le.mpr h
  rw [reading, Memory.slice, if_neg this]

theorem writing_of_le {m : Machine} {a : UInt16} {w : Word} {data : List UInt8} {r : Registers}
    (h : m.registers.i.toNat + data.length ≤ 4096) :
    m.writing a w data r =
      accept { m with memory := m.memory.store m.registers.i.toNat data, registers := r } := by
  rw [writing, Memory.write, if_pos (show _ ≤ Memory.size from h)]

theorem writing_of_lt {m : Machine} {a : UInt16} {w : Word} {data : List UInt8} {r : Registers}
    (h : 4096 < m.registers.i.toNat + data.length) :
    m.writing a w data r =
      m.refuse (.memory a w (.outOfRange m.registers.i data.length)) := by
  have : ¬m.registers.i.toNat + data.length ≤ Memory.size := Nat.not_le.mpr h
  rw [writing, Memory.write, if_neg this]

theorem asking_of_lt {m : Machine} {a : UInt16} {w : Word} {key : UInt8} {act : Bool → Registers}
    (h : key.toNat < 16) :
    m.asking a w key act = accept (m.withRegisters (act (m.keypad.isDown key.toNat))) := by
  rw [asking, Keypad.pressed, if_pos h]

theorem asking_of_le {m : Machine} {a : UInt16} {w : Word} {key : UInt8} {act : Bool → Registers}
    (h : 16 ≤ key.toNat) : m.asking a w key act = m.refuse (.invalidKey a w key) := by
  rw [asking, Keypad.pressed, if_neg (Nat.not_lt.mpr h)]

theorem reading_ok {m m' : Machine} {a : UInt16} {w : Word} {len : Nat}
    {act : List UInt8 → Machine} (h : m.reading a w len act = (.ok (), m')) :
    m.registers.i.toNat + len ≤ 4096 ∧ m' = act (m.memory.span m.registers.i.toNat len) := by
  rcases Nat.lt_or_ge 4096 (m.registers.i.toNat + len) with hlt | hle
  · rw [reading_of_lt hlt] at h
    cases h
  · rw [reading_of_le hle] at h
    cases h
    exact ⟨hle, rfl⟩

theorem writing_ok {m m' : Machine} {a : UInt16} {w : Word} {data : List UInt8} {r : Registers}
    (h : m.writing a w data r = (.ok (), m')) :
    m.registers.i.toNat + data.length ≤ 4096 ∧
      m' = { m with memory := m.memory.store m.registers.i.toNat data, registers := r } := by
  rcases Nat.lt_or_ge 4096 (m.registers.i.toNat + data.length) with hlt | hle
  · rw [writing_of_lt hlt] at h
    cases h
  · rw [writing_of_le hle] at h
    cases h
    exact ⟨hle, rfl⟩

theorem asking_ok {m m' : Machine} {a : UInt16} {w : Word} {key : UInt8} {act : Bool → Registers}
    (h : m.asking a w key act = (.ok (), m')) :
    key.toNat < 16 ∧ m' = m.withRegisters (act (m.keypad.isDown key.toNat)) := by
  rcases Nat.lt_or_ge key.toNat 16 with hlt | hle
  · rw [asking_of_lt hlt] at h
    cases h
    exact ⟨hlt, rfl⟩
  · rw [asking_of_le hle] at h
    cases h

/-- `Unmet m a w d e`: the machine does not meet the demand `d`, and `e` says so. -/
inductive Unmet (m : Machine) (a : UInt16) (w : Word) : Demand → Fault → Prop where
  | room : m.registers.stack.depth = 16 → Unmet m a w .room (.stackOverflow a w)
  | address : m.registers.stack.depth = 0 → Unmet m a w .address (.stackUnderflow a w)
  | bytes {len : Nat} : 4096 < m.registers.i.toNat + len →
      Unmet m a w (.bytes len) (.memory a w (.outOfRange m.registers.i len))
  | key {x : UInt8} : 15 < (m.registers.get x).toNat →
      Unmet m a w (.key x) (.invalidKey a w (m.registers.get x))

theorem length_upTo {r : Registers} {x : UInt8} (h : x.toNat < 16) :
    (r.upTo x).length = x.toNat + 1 := by
  rw [Registers.length_upTo_slot, Registers.slot_val h]

/-- **A demand that is not met refuses the instruction before it has done anything.** -/
theorem execute_of_unmet {m : Machine} {a : UInt16} {w : Word} {i : Instruction} {e : Fault}
    (hi : i.InRange) (h : m.Unmet a w i.demand e) : m.execute a w i = m.refuse e := by
  cases i with
  | call addr =>
      cases h with
      | room hd => simp [execute, Registers.push, CallStack.push, hd, Fault.ofStack]
  | ret =>
      cases h with
      | address hd => simp [execute, Registers.pop, CallStack.pop, hd, Fault.ofStack]
  | draw x y n =>
      cases h with
      | bytes hd => exact reading_of_lt hd
  | storeDecimal x =>
      cases h with
      | bytes hd => exact writing_of_lt hd
  | storeRegisters x =>
      cases h with
      | bytes hd =>
          -- the demand counts registers, the write counts the bytes it was given
          rw [← length_upTo (r := m.registers) hi] at hd ⊢
          exact writing_of_lt hd
  | loadRegisters x =>
      cases h with
      | bytes hd =>
          rw [← length_upTo (r := m.registers) hi] at hd ⊢
          exact reading_of_lt hd
  | skipPressed x | skipReleased x =>
      cases h with
      | key hd => exact asking_of_le hd
  | _ => cases h

/-- **An instruction whose demand is met is carried out.** -/
theorem execute_of_met {m : Machine} {a : UInt16} {w : Word} {i : Instruction}
    (hi : i.InRange) (h : ∀ e, ¬m.Unmet a w i.demand e) :
    ∃ m', m.execute a w i = accept m' := by
  cases i with
  | call addr =>
      -- the type bounds the depth by 16, so not full means room
      have hd : m.registers.stack.depth < 16 :=
        Nat.lt_of_le_of_ne m.registers.stack.depth_le fun hd => h _ (.room hd)
      obtain ⟨r, hr⟩ := Registers.exists_push m.registers.pc hd
      exact ⟨m.withRegisters (r.jump addr), by rw [execute, hr]⟩
  | ret =>
      have hd : 0 < m.registers.stack.depth := Nat.pos_of_ne_zero fun hd => h _ (.address hd)
      obtain ⟨addr, r, hr⟩ := Registers.exists_pop hd
      exact ⟨m.withRegisters (r.jump addr), by rw [execute, hr]⟩
  | draw x y n => exact ⟨_, reading_of_le (Nat.not_lt.mp fun hd => h _ (.bytes hd))⟩
  | storeDecimal x => exact ⟨_, writing_of_le (Nat.not_lt.mp fun hd => h _ (.bytes hd))⟩
  | storeRegisters x =>
      have hd := Nat.not_lt.mp fun hd => h _ (.bytes hd)
      rw [← length_upTo (r := m.registers) hi] at hd
      exact ⟨_, writing_of_le hd⟩
  | loadRegisters x =>
      have hd := Nat.not_lt.mp fun hd => h _ (.bytes hd)
      rw [← length_upTo (r := m.registers) hi] at hd
      exact ⟨_, reading_of_le hd⟩
  | skipPressed x | skipReleased x =>
      exact ⟨_, asking_of_lt (Nat.lt_of_not_le fun hd => h _ (.key hd))⟩
  | waitKey x =>
      rw [execute]
      split
      · exact ⟨_, rfl⟩
      · exact ⟨_, rfl⟩
  | _ => exact ⟨_, rfl⟩

/-- **An instruction is refused exactly for a demand that is not met**, and then the machine is
as it was. -/
theorem execute_eq_error_iff {m m' : Machine} {a : UInt16} {w : Word} {i : Instruction} {e : Fault}
    (hi : i.InRange) :
    m.execute a w i = (.error e, m') ↔ m.Unmet a w i.demand e ∧ m' = m := by
  constructor
  · intro h
    by_cases hu : ∃ e', m.Unmet a w i.demand e'
    · obtain ⟨e', hu⟩ := hu
      rw [execute_of_unmet hi hu] at h
      cases h
      exact ⟨hu, rfl⟩
    · obtain ⟨m₁, hm⟩ := execute_of_met hi (not_exists.mp hu)
      rw [hm] at h
      cases h
  · rintro ⟨hu, rfl⟩
    exact execute_of_unmet hi hu

/-! ## What no instruction touches -/

/-- Instructions neither press keys nor count cycles, a refused one is not recorded, and only a key
wait puts the machine into another status. -/
theorem execute_frame (m : Machine) (a : UInt16) (w : Word) (i : Instruction) :
    (m.execute a w i).2.keypad = m.keypad ∧ (m.execute a w i).2.seed = m.seed ∧
      (m.execute a w i).2.cycles = m.cycles ∧
      (m.execute a w i).2.lastInstruction = m.lastInstruction ∧
      ((∀ x, i ≠ .waitKey x) → (m.execute a w i).2.status = m.status) := by
  cases i with
  | draw | loadRegisters =>
      simp only [execute, reading]
      split <;> simp [accept, refuse, withRegisters]
  | storeDecimal | storeRegisters =>
      simp only [execute, writing]
      split <;> simp [accept, refuse]
  | skipPressed | skipReleased =>
      simp only [execute, asking]
      split <;> simp [accept, refuse, withRegisters]
  | ret | call | waitKey =>
      simp only [execute]
      split <;> simp [accept, refuse, withRegisters]
  | _ => exact ⟨rfl, rfl, rfl, rfl, fun _ => rfl⟩

theorem execute_status (m : Machine) (a : UInt16) (w : Word) {i : Instruction}
    (h : ∀ x, i ≠ .waitKey x) : (m.execute a w i).2.status = m.status := by
  obtain ⟨-, -, -, -, hs⟩ := execute_frame m a w i
  exact hs h

/-- Only a call and a return use the call stack. -/
theorem execute_stack (m : Machine) (a : UInt16) (w : Word) {i : Instruction}
    (hcall : ∀ addr, i ≠ .call addr) (hret : i ≠ .ret) :
    (m.execute a w i).2.registers.stack = m.registers.stack := by
  cases i with
  | call addr => exact absurd rfl (hcall addr)
  | ret => exact absurd rfl hret
  | draw | loadRegisters =>
      simp only [execute, reading]
      split <;> simp [accept, refuse, withRegisters, Registers.setFlag, Registers.put]
  | storeDecimal | storeRegisters =>
      simp only [execute, writing]
      split <;> simp [accept, refuse]
  | skipPressed | skipReleased =>
      simp only [execute, asking]
      split <;> simp [accept, refuse, withRegisters]
  | skipEqByte | skipNeByte | skipEqReg | skipNeReg => exact Registers.skipIf_stack _ _
  | waitKey =>
      simp only [execute]
      split <;> simp [accept, withRegisters, Registers.put]
  | _ => rfl

/-- **A machine that an instruction blocks is otherwise as it was**, and the instruction is the key
wait that the status remembers. -/
theorem execute_blocks {m m' : Machine} {a b : UInt16} {w : Word} {i : Instruction} {x : UInt8}
    {r : Except Fault Unit} (hs : m.status = .running) (he : m.execute a w i = (r, m'))
    (hb : m'.status = .awaitingKey x b) :
    i = .waitKey x ∧ b = a ∧ m' = { m with status := .awaitingKey x a } := by
  by_cases hi : ∃ y, i = .waitKey y
  · obtain ⟨y, rfl⟩ := hi
    rw [execute] at he
    cases hk : m.keypad.first? with
    | some key =>
        rw [hk] at he
        cases he
        -- the key was there, so the machine still runs
        have := hs.symm.trans hb
        cases this
    | none =>
        rw [hk] at he
        cases he
        cases hb
        exact ⟨rfl, rfl, rfl⟩
  · have hstatus := execute_status m a w fun y hy => hi ⟨y, hy⟩
    rw [he, hb, hs] at hstatus
    cases hstatus

theorem cycles_execute {m m' : Machine} {a : UInt16} {w : Word} {i : Instruction}
    {r : Except Fault Unit} (h : m.execute a w i = (r, m')) : m'.cycles = m.cycles := by
  obtain ⟨-, -, hc, -⟩ := execute_frame m a w i
  rwa [h] at hc

end Machine

end ChipEight
