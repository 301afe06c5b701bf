import Mathlib.Data.Prod.Basic
import ChipEight.Proofs.Cycle

/-!
# Faults

Two questions about a running machine: when does a fault happen, and what does it
change?

**When it happens.** `Faults` lists the causes, and a cycle answers with a fault
exactly if the list has it. At most one entry applies to a machine
(`Faults.unique`), so the answer of a cycle is determined by the word, the depth
of the stack, `I` and one register.

**What it changes.** The status, and the program counter if a word was fetched.
The counter moves before the word is decoded, so every fault but a failed fetch
finds it two further on. Nothing else has happened by then, because an
instruction makes its demand before its first effect.
-/

namespace ChipEight

/-- How far a cycle has moved the program counter when a fault stops it. -/
def Fault.passed : Fault → UInt16
  | .fetch _ _ => 0
  | _ => 2

namespace Machine

/-! ## When a fault happens -/

/-- The faults of the next cycle of a running machine. -/
inductive Faults (m : Machine) : Fault → Prop where
  | fetch : 0xFFE < m.registers.pc.toNat →
      Faults m (.fetch m.registers.pc (.outOfRange m.registers.pc 2))
  | invalidOpcode : m.registers.pc.toNat ≤ 0xFFE → m.word.decode? = none →
      Faults m (.invalidOpcode m.registers.pc m.word)
  | unmet {d : Demand} {e : Fault} : m.registers.pc.toNat ≤ 0xFFE → m.word.Demands d →
      m.Unmet m.registers.pc m.word d e → Faults m e

/-- Stepping over the word makes no demand easier or harder to meet. -/
theorem unmet_advanced {m : Machine} {a : UInt16} {w : Word} {d : Demand} {e : Fault} :
    m.advanced.Unmet a w d e ↔ m.Unmet a w d e := by
  constructor
  · intro h
    cases h with
    | room hd => exact .room hd
    | address hd => exact .address hd
    | bytes hd => exact .bytes hd
    | key hd => exact .key hd
  · intro h
    cases h with
    | room hd => exact .room hd
    | address hd => exact .address hd
    | bytes hd => exact .bytes hd
    | key hd => exact .key hd

theorem Unmet.unique {m : Machine} {a : UInt16} {w : Word} {d : Demand} {e e' : Fault}
    (h : m.Unmet a w d e) (h' : m.Unmet a w d e') : e = e' := by
  cases h <;> cases h' <;> rfl

/-- At most one fault applies. -/
theorem Faults.unique {m : Machine} {e e' : Fault} (h : m.Faults e) (h' : m.Faults e') :
    e = e' := by
  -- the counter tells a failed fetch from the rest, and the decoder the rest from each other
  cases h with
  | fetch hpc =>
      cases h' with
      | fetch _ => rfl
      | invalidOpcode hpc' _ => omega
      | unmet hpc' _ _ => omega
  | invalidOpcode hpc hd =>
      cases h' with
      | fetch hpc' => omega
      | invalidOpcode _ _ => rfl
      | unmet _ hd' _ =>
          obtain ⟨i, hi, _⟩ := hd'
          rw [hd] at hi
          cases hi
  | unmet hpc hd hu =>
      obtain ⟨i, hi, rfl⟩ := hd
      cases h' with
      | fetch hpc' => omega
      | invalidOpcode _ hd' =>
          rw [hd'] at hi
          cases hi
      | unmet _ hd' hu' =>
          obtain ⟨i', hi', rfl⟩ := hd'
          rw [hi] at hi'
          cases hi'
          exact hu.unique hu'

theorem faults_of_cycle {m : Machine} {e : Fault} (hr : m.status = .running)
    (h : m.cycle.1 = .error e) : m.Faults e := by
  obtain ⟨m', hc⟩ := cycled_of_answer h
  cases hc with
  | unfetched _ hpc => exact .fetch hpc
  | undecoded _ hpc hd => exact .invalidOpcode hpc hd
  | refused _ hpc hd he =>
      have hu := ((execute_eq_error_iff (Word.inRange_of_decode? hd)).mp he).1
      exact .unmet hpc ⟨_, hd, rfl⟩ (unmet_advanced.mp hu)
  | stopped hs =>
      rw [hr] at hs
      cases hs

/-- A cycle that executes an instruction met no fault. -/
theorem not_faults_of_cycle {m : Machine} {i : Instruction} (hr : m.status = .running)
    (h : m.cycle.1 = .ok i) :
    m.registers.pc.toNat ≤ 0xFFE ∧ m.word.decode? = some i ∧ ∀ e, ¬m.Faults e := by
  obtain ⟨m', hc⟩ := cycled_of_answer h
  cases hc with
  | executed _ hpc hd he =>
      refine ⟨hpc, hd, fun e hf => ?_⟩
      cases hf with
      | fetch hpc' => omega
      | invalidOpcode _ hd' =>
          rw [hd'] at hd
          cases hd
      | unmet _ hd' hu =>
          obtain ⟨i', hi', rfl⟩ := hd'
          rw [hd] at hi'
          cases hi'
          -- the demand would have refused the instruction, which was executed
          rw [execute_of_unmet (Word.inRange_of_decode? hd) (unmet_advanced.mpr hu)] at he
          cases he
  | released hs _ =>
      rw [hr] at hs
      cases hs
  | blocked hs _ =>
      rw [hr] at hs
      cases hs

/-- **A cycle answers with a fault exactly if the list of causes has it.** -/
theorem cycle_eq_error_iff {m : Machine} {e : Fault} (hr : m.status = .running) :
    m.cycle.1 = .error e ↔ m.Faults e := by
  constructor
  · exact faults_of_cycle hr
  · intro hf
    -- the cycle answers something, and only this fault applies
    cases hc : m.cycle.1 with
    | error e' => rw [(faults_of_cycle hr hc).unique hf]
    | ok i => exact absurd hf ((not_faults_of_cycle hr hc).2.2 e)

/-- **A cycle executes the instruction at the program counter exactly if no cause applies.** -/
theorem cycle_eq_ok_iff {m : Machine} {i : Instruction} (hr : m.status = .running) :
    m.cycle.1 = .ok i ↔ m.word.decode? = some i ∧ ∀ e, ¬m.Faults e := by
  constructor
  · exact fun h => (not_faults_of_cycle hr h).2
  · rintro ⟨hd, hf⟩
    cases hc : m.cycle.1 with
    | error e' => exact absurd (faults_of_cycle hr hc) (hf e')
    | ok i' =>
        have hd' := (not_faults_of_cycle hr hc).2.1
        rw [hd] at hd'
        cases hd'
        rfl

/-! ## The faults one by one -/

section Table

variable {m : Machine} (hpc : m.registers.pc.toNat ≤ 0xFFE)

include hpc

theorem faults_invalidOpcode_iff :
    m.Faults (.invalidOpcode m.registers.pc m.word) ↔ m.word.decode? = none := by
  constructor
  · intro h
    cases h with
    | invalidOpcode _ hd => exact hd
    | unmet _ _ hu => cases hu
  · exact .invalidOpcode hpc

theorem faults_stackOverflow_iff :
    m.Faults (.stackOverflow m.registers.pc m.word) ↔
      m.word.IsCall ∧ m.registers.stack.depth = 16 := by
  rw [← Word.demands_room]
  constructor
  · intro h
    cases h with
    | unmet _ hd hu =>
        cases hu with
        | room h16 => exact ⟨hd, h16⟩
  · exact fun ⟨hd, h16⟩ => .unmet hpc hd (.room h16)

theorem faults_stackUnderflow_iff :
    m.Faults (.stackUnderflow m.registers.pc m.word) ↔
      m.word.IsReturn ∧ m.registers.stack.depth = 0 := by
  rw [← Word.demands_address]
  constructor
  · intro h
    cases h with
    | unmet _ hd hu =>
        cases hu with
        | address h0 => exact ⟨hd, h0⟩
  · exact fun ⟨hd, h0⟩ => .unmet hpc hd (.address h0)

theorem faults_memory_iff (len : Nat) :
    m.Faults (.memory m.registers.pc m.word (.outOfRange m.registers.i len)) ↔
      m.word.span? = some len ∧ 4096 < m.registers.i.toNat + len := by
  rw [← Word.demands_bytes]
  constructor
  · intro h
    cases h with
    | unmet _ hd hu =>
        cases hu with
        | bytes hlt => exact ⟨hd, hlt⟩
  · exact fun ⟨hd, hlt⟩ => .unmet hpc hd (.bytes hlt)

theorem faults_invalidKey_iff :
    m.Faults (.invalidKey m.registers.pc m.word (m.registers.get m.word.x)) ↔
      m.word.AsksKey ∧ 15 < (m.registers.get m.word.x).toNat := by
  constructor
  · intro h
    -- the key has to be a variable before `cases` can match it
    generalize hk : m.registers.get m.word.x = key at h
    cases h with
    | unmet _ hd hu =>
        cases hu with
        | key hlt => exact ⟨((Word.demands_key _ _).mp hd).1, hlt⟩
  · exact fun ⟨ha, hlt⟩ => .unmet hpc ((Word.demands_key _ _).mpr ⟨ha, rfl⟩) (.key hlt)

/-- No fault applies if the word is an instruction whose demand is met. -/
theorem not_faults_iff {i : Instruction} (hd : m.word.decode? = some i) :
    (∀ e, ¬m.Faults e) ↔
      ¬(m.word.IsCall ∧ m.registers.stack.depth = 16) ∧
      ¬(m.word.IsReturn ∧ m.registers.stack.depth = 0) ∧
      (∀ len, m.word.span? = some len → m.registers.i.toNat + len ≤ 4096) ∧
      (m.word.AsksKey → (m.registers.get m.word.x).toNat ≤ 15) := by
  rw [← faults_stackOverflow_iff hpc, ← faults_stackUnderflow_iff hpc]
  constructor
  · refine fun h => ⟨h _, h _, fun len hs => ?_, fun ha => ?_⟩
    · exact Nat.not_lt.mp fun hlt => h _ ((faults_memory_iff hpc len).mpr ⟨hs, hlt⟩)
    · exact Nat.not_lt.mp fun hlt => h _ ((faults_invalidKey_iff hpc).mpr ⟨ha, hlt⟩)
  · rintro ⟨hroom, haddr, hbytes, hkey⟩ e hf
    cases hf with
    | fetch hpc' => omega
    | invalidOpcode _ hd' =>
        rw [hd] at hd'
        cases hd'
    | unmet _ hw hu =>
        cases hu with
        | room h16 => exact hroom (.unmet hpc hw (.room h16))
        | address h0 => exact haddr (.unmet hpc hw (.address h0))
        | bytes hlt => exact absurd (hbytes _ ((Word.demands_bytes _ _).mp hw)) (Nat.not_le.mpr hlt)
        | key hlt =>
            -- the register of the demand is the `X` of the word
            obtain ⟨ha, rfl⟩ := (Word.demands_key _ _).mp hw
            exact absurd (hkey ha) (Nat.not_le.mpr hlt)

end Table

/-- A fault names the instruction at the program counter, and its word if one was fetched. -/
theorem Faults.place {m : Machine} {e : Fault} (h : m.Faults e) :
    e.address? = some m.registers.pc ∧
      e.word? = if 0xFFE < m.registers.pc.toNat then none else some m.word := by
  cases h with
  | fetch hpc => simp [Fault.address?, Fault.word?, hpc]
  | invalidOpcode hpc _ => simp [Fault.address?, Fault.word?, hpc]
  | unmet hpc _ hu => cases hu <;> simp [Fault.address?, Fault.word?, hpc]

/--
**Which cycles fault, and with which report.**

With `a` the program counter of a running machine and `w` the word there: the
bounds on `a`, the stack, the bytes at `I` and the key are exact in both
directions, and every report names `a` and `w`.
-/
theorem cycle_report (m : Machine) (hr : m.status = .running) :
    let a := m.registers.pc
    let w := m.word
    (m.cycle.1 = .error (.fetch a (.outOfRange a 2)) ↔ 0xFFE < a.toNat) ∧
    (a.toNat ≤ 0xFFE →
      (m.cycle.1 = .error (.invalidOpcode a w) ↔ w.decode? = none) ∧
      (m.cycle.1 = .error (.stackOverflow a w) ↔
        w.IsCall ∧ m.registers.stack.depth = 16) ∧
      (m.cycle.1 = .error (.stackUnderflow a w) ↔
        w.IsReturn ∧ m.registers.stack.depth = 0) ∧
      (∀ len, m.cycle.1 = .error (.memory a w (.outOfRange m.registers.i len)) ↔
        w.span? = some len ∧ 4096 < m.registers.i.toNat + len) ∧
      (m.cycle.1 = .error (.invalidKey a w (m.registers.get w.x)) ↔
        w.AsksKey ∧ 15 < (m.registers.get w.x).toNat) ∧
      (∀ i, m.cycle.1 = .ok i ↔ w.decode? = some i ∧
        ¬(w.IsCall ∧ m.registers.stack.depth = 16) ∧
        ¬(w.IsReturn ∧ m.registers.stack.depth = 0) ∧
        (∀ len, w.span? = some len → m.registers.i.toNat + len ≤ 4096) ∧
        (w.AsksKey → (m.registers.get w.x).toNat ≤ 15))) ∧
    (∀ e, m.cycle.1 = .error e →
      e.address? = some a ∧ e.word? = if 0xFFE < a.toNat then none else some w) := by
  intro a w
  simp only [cycle_eq_error_iff hr, cycle_eq_ok_iff hr]
  refine ⟨⟨?_, .fetch⟩, fun hpc => ⟨?_, ?_, ?_, ?_, ?_, ?_⟩, fun e => Faults.place⟩
  · intro h
    cases h with
    | fetch hpc => exact hpc
    | unmet _ _ hu => cases hu
  · exact faults_invalidOpcode_iff hpc
  · exact faults_stackOverflow_iff hpc
  · exact faults_stackUnderflow_iff hpc
  · exact faults_memory_iff hpc
  · exact faults_invalidKey_iff hpc
  · intro i
    exact and_congr_right fun hd => not_faults_iff hpc hd

/-- A sprite without rows faults too if `I` lies beyond the end of memory. -/
theorem cycle_report_no_rows :
    let m : Machine := { ofSeed 7 with
      memory := Memory.powerOn.store 0x200 [0xD0, 0x00]
      registers := { Registers.powerOn with i := 0x1001 } }
    m.status = .running ∧
      m.cycle.1 = .error (.memory 0x200 ⟨0xD000⟩ (.outOfRange 0x1001 0)) := by
  intro m
  have hpc : m.registers.pc.toNat ≤ 0xFFE := by decide
  have hw : m.word = ⟨0xD000⟩ := word_of_store hpc rfl
  obtain ⟨-, hreport, -⟩ := cycle_report m rfl
  obtain ⟨-, -, -, hmemory, -⟩ := hreport hpc
  refine ⟨rfl, ?_⟩
  have hspan : m.word.span? = some 0 := by rw [hw]; decide
  rw [(hmemory 0).mpr ⟨hspan, by decide⟩, hw]
  rfl

/-! ## What a fault changes -/

theorem Unmet.passed {m : Machine} {a : UInt16} {w : Word} {d : Demand} {e : Fault}
    (h : m.Unmet a w d e) : e.passed = 2 := by
  cases h <;> rfl

/-- **A fault changes the status and the program counter, and nothing else.** -/
theorem fault_frame {m m' : Machine} {e : Fault} (hr : m.status = .running)
    (h : m.cycle = (.error e, m')) :
    m' = { m with
        status := .faulted
        registers := { m.registers with pc := m.registers.pc + e.passed } } ∧
      m'.registers.pc.toNat = m.registers.pc.toNat + e.passed.toNat := by
  cases cycled_of_eq h with
  | unfetched _ hpc => simp [halt, Fault.passed]
  | undecoded _ hpc _ => exact ⟨rfl, Registers.toNat_pc_advance (by omega)⟩
  | refused _ hpc hd he =>
      -- the refused instruction left the machine that had stepped past it
      obtain ⟨hu, rfl⟩ := (execute_eq_error_iff (Word.inRange_of_decode? hd)).mp he
      rw [hu.passed]
      exact ⟨rfl, Registers.toNat_pc_advance (by omega)⟩
  | stopped hs =>
      rw [hr] at hs
      cases hs

/-- A store whose second byte falls off the end of memory stores nothing. -/
theorem fault_frame_store :
    let m : Machine := { ofSeed 7 with
      memory := Memory.powerOn.store 0x200 [0xF1, 0x55]
      registers := { Registers.powerOn with i := 0xFFF } }
    m.status = .running ∧
      m.cycle = (.error (.memory 0x200 ⟨0xF155⟩ (.outOfRange 0xFFF 2)), m.cycle.2) ∧
      m.cycle.2 = { m with
        status := .faulted
        registers := { m.registers with pc := 0x202 } } := by
  intro m
  have hpc : m.registers.pc.toNat ≤ 0xFFE := by decide
  have hw : m.word = ⟨0xF155⟩ := word_of_store hpc rfl
  have hf : m.Faults (.memory m.registers.pc m.word (.outOfRange m.registers.i 2)) := by
    rw [faults_memory_iff hpc, hw]
    decide
  have hc : m.cycle.1 = .error (.memory 0x200 ⟨0xF155⟩ (.outOfRange 0xFFF 2)) := by
    rw [(cycle_eq_error_iff (m := m) rfl).mpr hf, hw]
    rfl
  have hm : m.cycle = (.error (.memory 0x200 ⟨0xF155⟩ (.outOfRange 0xFFF 2)), m.cycle.2) :=
    Prod.fst_eq_iff.mp hc
  refine ⟨rfl, hm, ?_⟩
  obtain ⟨hframe, -⟩ := fault_frame rfl hm
  rw [hframe]
  rfl

end Machine

end ChipEight
