import ChipEight.Proofs.Cycle
import ChipEight.Proofs.Runs

/-!
# A blocked key wait is a key wait tried again

The machine has a status for a blocked key wait and remembers its address. The
older way to wait has no such status: the key wait moves the program counter back
to itself, and the next cycle fetches, decodes and executes it again. `RetryMachine`
works that way.

Nobody outside can tell the two apart. `RetryMachine.ofMachine` forgets the status,
and shows the address of a blocked wait as the program counter. Every event gives
both machines the same answer, and they stay related.

What has to be known of a blocked machine is `WaitIntact`: the word at the
remembered address is still the key wait that blocked. It could only be changed by
an instruction, and a blocked machine executes none.
-/

namespace ChipEight

/-! ## The machine that tries again -/

/-- A machine without a status for a blocked key wait. -/
structure RetryMachine where
  registers : Registers
  memory : Memory
  screen : Screen
  keypad : Keypad
  random : KeyStream
  seed : Option UInt64
  faulted : Bool
  cycles : Nat
  lastInstruction : Option Instruction
deriving DecidableEq

namespace RetryMachine

def ofSeed (seed : UInt64) : RetryMachine :=
  { registers := .powerOn, memory := .powerOn, screen := .blank, keypad := .released,
    random := .ofSeed seed, seed := some seed, faulted := false, cycles := 0,
    lastInstruction := none }

def load (r : RetryMachine) (program : List UInt8) : Except MemoryError Unit × RetryMachine :=
  ((r.memory.load program).1, { r with memory := (r.memory.load program).2 })

def setKey (r : RetryMachine) (key : UInt8) (down : Bool) : Except NoSuchKey RetryMachine :=
  match r.keypad.set key down with
  | .ok keypad => .ok { r with keypad }
  | .error e => .error e

def tick (r : RetryMachine) : RetryMachine :=
  { r with registers := r.registers.tick }

def settle (r : RetryMachine) : RetryMachine :=
  { r with screen := r.screen.settle }

def withRegisters (r : RetryMachine) (registers : Registers) : RetryMachine :=
  { r with registers }

def halt (r : RetryMachine) : RetryMachine :=
  { r with faulted := true }

def record (r : RetryMachine) (i : Instruction) : RetryMachine :=
  { r with cycles := r.cycles + 1, lastInstruction := some i }

/-- What an instruction other than a key wait sees. -/
def view (r : RetryMachine) : Machine :=
  { registers := r.registers, memory := r.memory, screen := r.screen, keypad := r.keypad,
    random := r.random, seed := r.seed, status := .running, cycles := r.cycles,
    lastInstruction := r.lastInstruction }

/-- What such an instruction leaves behind. -/
def update (r : RetryMachine) (m : Machine) : RetryMachine :=
  { r with
    registers := m.registers, memory := m.memory, screen := m.screen, keypad := m.keypad,
    random := m.random, seed := m.seed, cycles := m.cycles,
    lastInstruction := m.lastInstruction }

/-- Execute an instruction. A key wait with no key down goes back to its own address. -/
def execute (r : RetryMachine) (address : UInt16) (word : Word) :
    Instruction → Except Fault Unit × RetryMachine
  | .waitKey x =>
    match r.keypad.first? with
    | some key => (.ok (), r.withRegisters (r.registers.put x (UInt8.ofNat key)))
    | none => (.ok (), r.withRegisters (r.registers.jump address))
  | i => ((r.view.execute address word i).1, r.update (r.view.execute address word i).2)

/-- One cycle: fetch, step past the word, decode, execute. -/
def cycle (r : RetryMachine) : Except Fault Instruction × RetryMachine :=
  if r.faulted then (.error (.notRunning .faulted), r)
  else
    let address := r.registers.pc
    match r.memory.readWord address with
    | .error e => (.error (.fetch address e), r.halt)
    | .ok word =>
      let r := r.withRegisters r.registers.advance
      match word.decode? with
      | none => (.error (.invalidOpcode address word), r.halt)
      | some i =>
        match r.execute address word i with
        | (.error e, r) => (.error e, r.halt)
        | (.ok (), r) => (.ok i, r.record i)

def handle (r : RetryMachine) : Event → Answer × RetryMachine
  | .cycle => (.cycled r.cycle.1, r.cycle.2)
  | .tick => (.ticked, r.tick)
  | .key key down =>
    match r.setKey key down with
    | .ok r' => (.keyed (.ok ()), r')
    | .error e => (.keyed (.error e), r)
  | .repaint => (.repaint r.screen.dirty, r.settle)

/-- The machine that a machine looks like if its status may not be asked for: everything is the
same, but the program counter of a blocked machine stands at the key wait. -/
def ofMachine (m : Machine) : RetryMachine :=
  { registers := { m.registers with pc := m.instructionAddress }, memory := m.memory,
    screen := m.screen, keypad := m.keypad, random := m.random, seed := m.seed,
    faulted := decide (m.status = .faulted), cycles := m.cycles,
    lastInstruction := m.lastInstruction }

end RetryMachine

/-! ## What has to be known of a blocked machine -/

/-- The word at the address of a blocked wait is still that key wait, and the program counter is
past it. -/
def Machine.WaitIntact (m : Machine) : Prop :=
  ∀ x a, m.status = .awaitingKey x a → m.registers.pc = a + 2 ∧
    ∃ w, m.memory.readWord a = .ok w ∧ w.decode? = some (.waitKey x)

namespace Machine

/-- A key wait that finds no key blocks the machine. -/
theorem status_cycle_waitKey {m : Machine} {x : UInt8} (hs : m.status = .running)
    (hpc : m.registers.pc.toNat ≤ 0xFFE) (hd : m.word.decode? = some (.waitKey x))
    (hk : m.keypad.first? = none) : m.cycle.2.status = .awaitingKey x m.registers.pc := by
  have hk' : (m.withRegisters m.registers.advance).keypad.first? = none := hk
  rw [cycle, hs]
  dsimp only [fetchExecute]
  rw [readWord_of_le hpc]
  dsimp only
  rw [hd]
  dsimp only
  rw [execute, hk']
  rfl

/-- **A cycle leaves a blocked wait intact.** A cycle that blocks has just read the key wait, and a
cycle of a blocked machine writes nothing. -/
theorem WaitIntact.cycled {m m' : Machine} {r : Except Fault Instruction} (h : m.WaitIntact)
    (hc : Cycled m r m') : m'.WaitIntact := by
  cases hc with
  | unfetched _ _ => intro x a hs; cases hs
  | undecoded _ _ _ => intro x a hs; cases hs
  | refused _ _ _ _ => intro x a hs; cases hs
  | @executed i m' hs hpc hd he =>
      intro x a hx
      have ha : m.advanced.status = .running := hs
      have hb : m'.status = .awaitingKey x a := hx
      -- the wait that blocks is the word just read, and memory is as it was
      obtain ⟨rfl, rfl, rfl⟩ := execute_blocks ha he hb
      exact ⟨rfl, m.word, readWord_of_le hpc, hd⟩
  | released hs hk => intro x a hs; cases hs
  | blocked hs hk => exact h
  | stopped hs => exact h

/-- **Every event leaves a blocked wait intact.** -/
theorem WaitIntact.handle {m : Machine} (h : m.WaitIntact) (e : Event) :
    (m.handle e).2.WaitIntact := by
  cases e with
  | cycle => exact h.cycled m.cycle_cycled
  | tick => exact h
  | key key down =>
      rw [Machine.handle, setKey]
      cases m.keypad.set key down with
      | ok keypad => exact h
      | error e => exact h
  | repaint => exact h

/-- A program loaded into a machine that is not blocked finds no wait to break. -/
theorem waitIntact_load {m m' : Machine} {program : List UInt8} (hs : m.isAwaitingKey = false)
    (h : (m.load program).2 = m') : m'.WaitIntact := by
  intro x a hx
  subst h
  have hx' : m.status = .awaitingKey x a := hx
  simp [isAwaitingKey, hx'] at hs

end Machine

namespace RetryMachine

open Machine (WaitIntact Cycled)

/-! ## The related machine, status by status -/

theorem ofMachine_running {m : Machine} (h : m.status = .running) :
    ofMachine m =
      { registers := m.registers, memory := m.memory, screen := m.screen, keypad := m.keypad,
        random := m.random, seed := m.seed, faulted := false, cycles := m.cycles,
        lastInstruction := m.lastInstruction } := by
  simp [ofMachine, Machine.instructionAddress, h]

theorem registers_ofMachine {m : Machine} (h : m.status = .running) :
    (ofMachine m).registers = m.registers := by
  rw [ofMachine_running h]

theorem ofMachine_halt {m : Machine} (h : m.status = .running) :
    ofMachine m.halt = (ofMachine m).halt := by
  simp [ofMachine, halt, Machine.instructionAddress, Machine.halt, h]

theorem ofMachine_withRegisters {m : Machine} (h : m.status = .running) (registers : Registers) :
    ofMachine (m.withRegisters registers) = (ofMachine m).withRegisters registers := by
  simp [ofMachine, withRegisters, Machine.instructionAddress, Machine.withRegisters, h]

theorem ofMachine_blocked {m : Machine} (h : m.status = .running) (x : UInt8) (a : UInt16) :
    ofMachine { m with status := .awaitingKey x a } =
      (ofMachine m).withRegisters (m.registers.jump a) := by
  simp [ofMachine, withRegisters, Machine.instructionAddress, Registers.jump, h]

theorem view_ofMachine {m : Machine} (h : m.status = .running) : (ofMachine m).view = m := by
  rw [ofMachine_running h, view]
  cases m
  cases h
  rfl

theorem update_ofMachine {m m' : Machine} (h : m.status = .running) (h' : m'.status = .running) :
    (ofMachine m).update m' = ofMachine m' := by
  rw [ofMachine_running h, ofMachine_running h', update]

/-! ## One step -/

/-- **Every instruction does the same to both machines**, a key wait that blocks included. -/
theorem execute_ofMachine {m : Machine} (h : m.status = .running) (a : UInt16) (w : Word)
    (i : Instruction) :
    (ofMachine m).execute a w i = ((m.execute a w i).1, ofMachine (m.execute a w i).2) := by
  -- a key wait is the only instruction that the two machines do not share
  by_cases hi : ∃ x, i = .waitKey x
  · obtain ⟨x, rfl⟩ := hi
    rw [execute, Machine.execute, registers_ofMachine h,
      show (ofMachine m).keypad = m.keypad from rfl]
    cases m.keypad.first? with
    | some key =>
        dsimp only
        rw [← ofMachine_withRegisters h]
        rfl
    | none =>
        dsimp only
        rw [← ofMachine_blocked h x a]
        rfl
  · have hi' : ∀ x, i ≠ .waitKey x := fun x hx => hi ⟨x, hx⟩
    have hs := (Machine.execute_status m a w hi').trans h
    rw [execute]
    · rw [view_ofMachine h, update_ofMachine h hs]
    · exact hi'

theorem cycle_of_readWord {r : RetryMachine} {w : Word} (hf : r.faulted = false)
    (hw : r.memory.readWord r.registers.pc = .ok w) :
    r.cycle =
      match w.decode? with
      | none =>
        (.error (.invalidOpcode r.registers.pc w), (r.withRegisters r.registers.advance).halt)
      | some i =>
        match (r.withRegisters r.registers.advance).execute r.registers.pc w i with
        | (.error e, r) => (.error e, r.halt)
        | (.ok (), r) => (.ok i, r.record i) := by
  simp only [cycle, hf, hw, Bool.false_eq_true, if_false]

/-- A cycle of the machine related to a running one that has fetched a word. -/
theorem cycle_ofMachine {m : Machine} (hs : m.status = .running)
    (hpc : m.registers.pc.toNat ≤ 0xFFE) :
    (ofMachine m).cycle =
      match m.word.decode? with
      | none => (.error (.invalidOpcode m.registers.pc m.word), ofMachine m.advanced.halt)
      | some i =>
        match m.advanced.execute m.registers.pc m.word i with
        | (.error e, m') => (.error e, (ofMachine m').halt)
        | (.ok (), m') => (.ok i, (ofMachine m').record i) := by
  have hr := registers_ofMachine hs
  have hw : (ofMachine m).memory.readWord (ofMachine m).registers.pc = .ok m.word := by
    rw [hr]
    exact Machine.readWord_of_le hpc
  have hf : (ofMachine m).faulted = false := by rw [ofMachine_running hs]
  have ha : m.advanced.status = .running := hs
  rw [cycle_of_readWord hf hw, hr, ← ofMachine_withRegisters hs]
  cases m.word.decode? with
  | none =>
      dsimp only
      rw [ofMachine_halt ha]
      rfl
  | some i =>
      dsimp only
      rw [← Machine.advanced, execute_ofMachine ha]
      rcases m.advanced.execute m.registers.pc m.word i with ⟨_ | _, m'⟩ <;> rfl

/-- The related machine tries a blocked key wait again. -/
theorem cycle_ofMachine_blocked {m : Machine} {x : UInt8} {a : UInt16} (h : WaitIntact m)
    (hs : m.status = .awaitingKey x a) :
    (ofMachine m).cycle =
      (.ok (.waitKey x), ofMachine ((m.pollKey x).record (.waitKey x))) := by
  obtain ⟨hpc, w, hw, hd⟩ := h x a hs
  have hr : (ofMachine m).registers = m.registers.jump a := by
    simp [ofMachine, Machine.instructionAddress, Registers.jump, hs]
  -- stepping past the key wait again gives back the counter that the blocked machine kept
  have ha : (m.registers.jump a).advance = m.registers := by
    simp [Registers.jump, Registers.advance, ← hpc]
  have hw' : (ofMachine m).memory.readWord (ofMachine m).registers.pc = .ok w := by
    rw [hr]
    exact hw
  have hf : (ofMachine m).faulted = false := by simp [ofMachine, hs]
  rw [cycle_of_readWord hf hw', hd, hr, ha]
  dsimp only
  rw [execute, show ((ofMachine m).withRegisters m.registers).keypad = m.keypad from rfl,
    Machine.pollKey]
  cases m.keypad.first? with
  | some key =>
      simp [ofMachine, withRegisters, record, Machine.record, Machine.instructionAddress, hs]
  | none =>
      simp [ofMachine, withRegisters, record, Machine.record, Machine.instructionAddress,
        Registers.jump, hs]

/-- **Every cycle does the same to both machines.** -/
theorem cycle_cycled {m m' : Machine} {r : Except Fault Instruction} (h : WaitIntact m)
    (hc : Cycled m r m') : (ofMachine m).cycle = (r, ofMachine m') := by
  cases hc with
  | unfetched hs hpc =>
      have hf : ¬(ofMachine m).faulted = true := by simp [ofMachine, hs]
      rw [cycle, if_neg hf, registers_ofMachine hs, ofMachine_halt hs]
      dsimp only
      rw [show (ofMachine m).memory = m.memory from rfl, Machine.readWord_of_lt hpc]
  | undecoded hs hpc hd => rw [cycle_ofMachine hs hpc, hd]
  | @refused i e m' hs hpc hd he =>
      -- a refused instruction has not blocked
      have ha : m'.status = .running := by
        obtain ⟨_, rfl⟩ :=
          (Machine.execute_eq_error_iff (Word.inRange_of_decode? hd)).mp he
        exact hs
      rw [cycle_ofMachine hs hpc, hd, ofMachine_halt ha]
      dsimp only
      rw [he]
  | executed hs hpc hd he =>
      rw [cycle_ofMachine hs hpc, hd]
      dsimp only
      rw [he]
      rfl
  | released hs hk =>
      rw [cycle_ofMachine_blocked h hs, Machine.pollKey, hk]
  | blocked hs hk =>
      rw [cycle_ofMachine_blocked h hs, Machine.pollKey, hk]
  | stopped hs =>
      have hf : (ofMachine m).faulted = true := by simp [ofMachine, hs]
      rw [cycle, if_pos hf]

theorem tick_ofMachine (m : Machine) : (ofMachine m).tick = ofMachine m.tick := by
  simp only [ofMachine, tick, Machine.tick, Registers.tick, Machine.instructionAddress]
  rfl

/-- **Every event does the same to both machines**, and leaves a blocked wait intact. -/
theorem handle_ofMachine (m : Machine) (e : Event) (h : WaitIntact m) :
    (ofMachine m).handle e = ((m.handle e).1, ofMachine (m.handle e).2) ∧
      WaitIntact (m.handle e).2 := by
  refine ⟨?_, h.handle e⟩
  cases e with
  | cycle =>
      rw [handle, cycle_cycled h m.cycle_cycled]
      rfl
  | tick =>
      rw [handle, tick_ofMachine]
      rfl
  | key key down =>
      rw [handle, setKey, Machine.handle, Machine.setKey,
        show (ofMachine m).keypad = m.keypad from rfl]
      cases m.keypad.set key down with
      | ok keypad => rfl
      | error e => rfl
  | repaint => rfl

/-! ## Every run -/

theorem ofMachine_ofSeed (seed : UInt64) : ofMachine (Machine.ofSeed seed) = ofSeed seed := rfl

theorem load_ofMachine (m : Machine) (program : List UInt8) :
    (ofMachine m).load program = ((m.load program).1, ofMachine (m.load program).2) :=
  rfl

/--
**Nobody outside can tell a blocked key wait from one that is tried again.**

After the same program is loaded, every event has the same answer on both
machines, in whatever order cycles, ticks, keys and repaints come. At every point
the two machines differ only in how they write down a blocked wait.
-/
theorem retry_simulates {seed : UInt64} {program : List UInt8} {m : Machine}
    (h : (Machine.ofSeed seed).load program = (.ok (), m)) :
    ∃ r, (RetryMachine.ofSeed seed).load program = (.ok (), r) ∧
      ∀ events, answersTo RetryMachine.handle r events =
        ((answersTo Machine.handle m events).1,
          RetryMachine.ofMachine (answersTo Machine.handle m events).2) := by
  refine ⟨ofMachine m, ?_, fun events => ?_⟩
  · rw [← ofMachine_ofSeed, load_ofMachine, h]
  · have hstart : WaitIntact m := Machine.waitIntact_load rfl (congrArg Prod.snd h)
    exact answersTo_simulates handle_ofMachine hstart events

/-- A program that is one key wait: it blocks, is tried again, and ends with the key. -/
theorem retry_simulates_wait :
    let m : Machine := { Machine.ofSeed 7 with memory := Memory.powerOn.store 0x200 [0xF0, 0x0A] }
    let events := [.cycle, .tick, .cycle, .key 5 true, .cycle, .repaint]
    (Machine.ofSeed 7).load [0xF0, 0x0A] = (.ok (), m) ∧
      m.cycle.2.status = .awaitingKey 0 0x200 ∧
      ∃ r, (ofSeed 7).load [0xF0, 0x0A] = (.ok (), r) ∧
        (answersTo handle r events).1 = (answersTo Machine.handle m events).1 := by
  intro m events
  have hl : (Machine.ofSeed 7).load [0xF0, 0x0A] = (.ok (), m) := rfl
  have hpc : m.registers.pc.toNat ≤ 0xFFE := by decide
  have hw : m.word = ⟨0xF00A⟩ := Machine.word_of_store hpc rfl
  have hs : m.cycle.2.status = .awaitingKey 0 0x200 := by
    have hd : m.word.decode? = some (.waitKey 0) := by rw [hw]; decide
    exact Machine.status_cycle_waitKey rfl hpc hd (by decide)
  obtain ⟨r, hr, hsim⟩ := retry_simulates hl
  exact ⟨hl, hs, r, hr, by rw [hsim]⟩

end RetryMachine

end ChipEight
