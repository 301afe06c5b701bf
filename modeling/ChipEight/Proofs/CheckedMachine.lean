import ChipEight.Proofs.Bounds
import ChipEight.Proofs.CheckedParts

/-!
# The checked machine never gives up

The machine once more, with every access that may go wrong replaced by one that
gives up: registers, pixels, keys and bytes that do not exist, sixteen-bit sums
that wrap, a cycle count of `2 ^ 64`. Where the machine of the library
would carry on by one of its conventions, this one answers `none`.

`perform?_eq` says that it never does, on any reachable machine: the conventions
are never needed.
-/

namespace ChipEight.Machine

/-! ## Checked execution -/

/-- Change the registers, if that succeeds. -/
def setting? (m : Machine) (r : Option Registers) : Option (Except Fault Unit × Machine) :=
  r.map fun r => accept (m.withRegisters r)

/-- Execute an instruction that reads bytes at `I`. -/
def reading? (m : Machine) (a : UInt16) (w : Word) (len : Nat)
    (act : List UInt8 → Option Machine) : Option (Except Fault Unit × Machine) := do
  match ← m.memory.slice? m.registers.i len with
  | .ok data => return accept (← act data)
  | .error e => return m.refuse (.memory a w e)

/-- Execute an instruction that writes bytes at `I`. -/
def writing? (m : Machine) (a : UInt16) (w : Word) (data : List UInt8) (registers : Registers) :
    Option (Except Fault Unit × Machine) := do
  match ← m.memory.write? m.registers.i data with
  | .ok memory => return accept { m with memory, registers }
  | .error e => return m.refuse (.memory a w e)

/-- Execute an instruction that asks for a key. -/
def asking? (m : Machine) (a : UInt16) (w : Word) (key : UInt8)
    (act : Bool → Option Registers) : Option (Except Fault Unit × Machine) := do
  match ← m.keypad.pressed? key with
  | .ok down => m.setting? (act down)
  | .error e => return m.refuse (.invalidKey a w e.key)

/-- Execute an instruction. The call stack needs no check: its operations index with a proof. -/
def execute? (m : Machine) (a : UInt16) (w : Word) :
    Instruction → Option (Except Fault Unit × Machine)
  | .clear => some (accept { m with screen := m.screen.clear })
  | .draw x y n => do
    let left := (← m.registers.get? x).toNat
    let top := (← m.registers.get? y).toNat
    m.reading? a w n.toNat fun rows => do
      let collision ← m.screen.collides? left top rows
      return { m with
        screen := ← m.screen.draw? left top rows
        registers := ← m.registers.setFlag? collision }
  | .ret =>
    match m.registers.pop with
    | .ok (addr, registers) => m.setting? (registers.jump addr)
    | .error e => some (m.refuse (.ofStack a w e))
  | .jump addr => m.setting? (m.registers.jump addr)
  | .call addr =>
    match m.registers.push m.registers.pc with
    | .ok registers => m.setting? (registers.jump addr)
    | .error e => some (m.refuse (.ofStack a w e))
  | .jumpOffset addr => m.setting? do
    return m.registers.jump (← sum? addr (← m.registers.get? 0).toUInt16)
  | .skipEqByte x nn => m.setting? do m.registers.skipIf? ((← m.registers.get? x) == nn)
  | .skipNeByte x nn => m.setting? do m.registers.skipIf? ((← m.registers.get? x) != nn)
  | .skipEqReg x y => m.setting? do
    m.registers.skipIf? ((← m.registers.get? x) == (← m.registers.get? y))
  | .skipNeReg x y => m.setting? do
    m.registers.skipIf? ((← m.registers.get? x) != (← m.registers.get? y))
  | .loadByte x nn => m.setting? (m.registers.put? x nn)
  | .addByte x nn => m.setting? do m.registers.put? x ((← m.registers.get? x) + nn)
  | .copy x y => m.setting? do m.registers.put? x (← m.registers.get? y)
  | .or x y => m.setting? do
    m.registers.put? x ((← m.registers.get? x) ||| (← m.registers.get? y))
  | .and x y => m.setting? do
    m.registers.put? x ((← m.registers.get? x) &&& (← m.registers.get? y))
  | .xor x y => m.setting? do
    m.registers.put? x ((← m.registers.get? x) ^^^ (← m.registers.get? y))
  | .add x y => m.setting? do
    let a ← m.registers.get? x
    let b ← m.registers.get? y
    (← m.registers.put? x (a + b)).setFlag? (256 ≤ a.toNat + b.toNat)
  | .sub x y => m.setting? do
    let a ← m.registers.get? x
    let b ← m.registers.get? y
    (← m.registers.put? x (a - b)).setFlag? (b ≤ a)
  | .shiftRight x y => m.setting? do
    let b ← m.registers.get? y
    (← m.registers.put? x (b >>> 1)).setFlag? (b.toNat.testBit 0)
  | .subFrom x y => m.setting? do
    let a ← m.registers.get? x
    let b ← m.registers.get? y
    (← m.registers.put? x (b - a)).setFlag? (a ≤ b)
  | .shiftLeft x y => m.setting? do
    let b ← m.registers.get? y
    (← m.registers.put? x (b <<< 1)).setFlag? (b.toNat.testBit 7)
  | .random x nn => do
    let registers ← m.registers.put? x (m.random.peek &&& nn)
    return accept { m with registers, random := m.random.advance }
  | .setIndex addr => m.setting? (some { m.registers with i := addr })
  | .addIndex x => m.setting? do
    return { m.registers with i := m.registers.i + (← m.registers.get? x).toUInt16 }
  | .fontIndex x => m.setting? do
    let digit := (← m.registers.get? x).toUInt16 % 16
    return { m.registers with i := ← sum? Memory.fontStart (← product? digit Memory.fontHeight) }
  | .storeDecimal x => do
    m.writing? a w (decimalDigits (← m.registers.get? x)) m.registers
  | .storeRegisters x => do
    let data ← m.registers.first? (x.toNat + 1)
    m.writing? a w data { m.registers with i := m.registers.i + UInt16.ofNat (x.toNat + 1) }
  | .loadRegisters x =>
    m.reading? a w (x.toNat + 1) fun data => do
      let r ← m.registers.fill? (x.toNat + 1) data
      return m.withRegisters { r with i := m.registers.i + UInt16.ofNat (x.toNat + 1) }
  | .skipPressed x => do
    m.asking? a w (← m.registers.get? x) fun down => m.registers.skipIf? down
  | .skipReleased x => do
    m.asking? a w (← m.registers.get? x) fun down => m.registers.skipIf? !down
  | .waitKey x => do
    match ← m.keypad.scan? with
    | some key => m.setting? (m.registers.put? x (UInt8.ofNat key))
    | none => return accept { m with status := .awaitingKey x a }
  | .readDelay x => m.setting? (m.registers.put? x m.registers.delay)
  | .setDelay x => m.setting? do
    return { m.registers with delay := ← m.registers.get? x }
  | .setSound x => m.setting? do
    return { m.registers with sound := ← m.registers.get? x }

/-! ## Execution gives up on nothing -/

theorem reading?_eq {m : Machine} {a : UInt16} {w : Word} {len : Nat}
    {act? : List UInt8 → Option Machine} {act : List UInt8 → Machine}
    (h : ∀ data : List UInt8, data.length = len → act? data = some (act data)) :
    m.reading? a w len act? = some (m.reading a w len act) := by
  rw [reading?, Memory.slice?_eq, reading]
  cases hs : m.memory.slice m.registers.i len with
  | ok data =>
      simp only [Option.bind_eq_bind, Option.bind_some, h data (Memory.length_slice hs)]
      rfl
  | error e => rfl

theorem writing?_eq (m : Machine) (a : UInt16) (w : Word) (data : List UInt8) (r : Registers) :
    m.writing? a w data r = some (m.writing a w data r) := by
  rw [writing?, Memory.write?_eq, writing]
  cases m.memory.write m.registers.i data <;> rfl

theorem asking?_eq {m : Machine} {a : UInt16} {w : Word} {key : UInt8}
    {act? : Bool → Option Registers} {act : Bool → Registers}
    (h : ∀ down, act? down = some (act down)) :
    m.asking? a w key act? = some (m.asking a w key act) := by
  rw [asking?, Keypad.pressed?_eq, asking]
  cases m.keypad.pressed key with
  | ok down =>
      simp only [Option.bind_eq_bind, Option.bind_some, h]
      rfl
  | error e => rfl

/-- The address of a font sprite does not wrap. -/
theorem fontAddress?_eq (a : UInt8) :
    (do sum? Memory.fontStart (← product? (a.toUInt16 % 16) Memory.fontHeight)) =
      some (Memory.fontStart + a.toUInt16 % 16 * Memory.fontHeight) := by
  have hd : (a.toUInt16 % 16).toNat < 16 := by
    rw [UInt16.toNat_mod]
    exact Nat.mod_lt _ (by decide)
  have hf : Memory.fontHeight.toNat = 5 := rfl
  have hs : Memory.fontStart.toNat = 80 := rfl
  have hp : (a.toUInt16 % 16).toNat * Memory.fontHeight.toNat < 0x10000 := by
    rw [hf]
    omega
  have ha : Memory.fontStart.toNat + (a.toUInt16 % 16 * Memory.fontHeight).toNat < 0x10000 := by
    rw [UInt16.toNat_mul, Nat.mod_eq_of_lt hp, hf, hs]
    omega
  simp only [product?, if_pos hp, Option.bind_eq_bind, Option.bind_some, sum?, if_pos ha]

/-- **An instruction with operands in range, fetched inside memory, gives up on nothing.** -/
theorem Fetched.execute?_eq {m : Machine} {a : UInt16} {w : Word} {i : Instruction}
    (h : Fetched m a) (hi : i.InRange) : m.execute? a w i = some (m.execute a w i) := by
  -- a skip starts at most at `0x1000`
  have hskip : m.registers.pc.toNat + 2 < 0x10000 := by
    have := h.pc
    have := h.address
    omega
  cases i with
  | clear | jump addr | setIndex addr => rfl
  | draw x y n =>
      simp only [execute?, Registers.get?_eq hi.1, Registers.get?_eq hi.2.1, Option.bind_eq_bind,
        Option.bind_some]
      refine reading?_eq fun rows _ => ?_
      simp only [Screen.collides?_eq, Screen.draw?_eq, Registers.setFlag?_eq, Option.bind_some]
      rfl
  | ret =>
      rw [Machine.execute, execute?]
      rcases m.registers.pop with _ | ⟨addr, r⟩ <;> rfl
  | call addr =>
      rw [Machine.execute, execute?]
      rcases m.registers.push m.registers.pc with _ | r <;> rfl
  | jumpOffset addr =>
      -- twelve bits and eight bits do not fill sixteen
      have hlt : addr.toNat < 0x1000 := hi
      have hv := (m.registers.get 0).toNat_lt
      have hs : addr.toNat + (m.registers.get 0).toUInt16.toNat < 0x10000 := by
        rw [UInt8.toNat_toUInt16]
        omega
      simp only [execute?, Registers.get?_eq (show (0 : UInt8).toNat < 16 by decide), sum?,
        if_pos hs, Option.bind_eq_bind, Option.bind_some]
      rfl
  | fontIndex x =>
      have hf := fontAddress?_eq (m.registers.get x)
      simp only [Option.bind_eq_bind] at hf
      simp only [execute?, Registers.get?_eq hi, Option.bind_eq_bind, Option.bind_some]
      rw [← Option.bind_assoc, hf]
      rfl
  | storeDecimal x =>
      simp only [execute?, Registers.get?_eq hi, Option.bind_eq_bind, Option.bind_some]
      exact writing?_eq _ _ _ _ _
  | storeRegisters x =>
      simp only [execute?, Registers.first?_eq hi, Option.bind_eq_bind, Option.bind_some]
      rw [writing?_eq, Machine.execute, length_upTo hi]
  | loadRegisters x =>
      simp only [execute?, Machine.execute, length_upTo (r := m.registers) hi]
      refine reading?_eq fun data hd => ?_
      have hc : x.toNat + 1 ≤ 16 ∧ data.length = x.toNat + 1 := ⟨hi, hd⟩
      simp only [Registers.fill?, if_pos hc, Option.bind_eq_bind, Option.bind_some]
      rfl
  | skipPressed x =>
      simp only [execute?, Registers.get?_eq hi, Option.bind_eq_bind, Option.bind_some]
      exact asking?_eq fun down => Registers.skipIf?_eq hskip down
  | skipReleased x =>
      simp only [execute?, Registers.get?_eq hi, Option.bind_eq_bind, Option.bind_some]
      exact asking?_eq fun down => Registers.skipIf?_eq hskip !down
  | waitKey x =>
      simp only [execute?, Machine.execute, Keypad.scan?_eq, Option.bind_eq_bind, Option.bind_some]
      cases m.keypad.first? with
      | some key =>
          simp only [Registers.put?_eq hi]
          rfl
      | none => rfl
  | skipEqReg x y | skipNeReg x y | copy x y | or x y | and x y | xor x y | add x y | sub x y
  | shiftRight x y | subFrom x y | shiftLeft x y =>
      simp only [execute?, Registers.get?_eq hi.1, Registers.get?_eq hi.2, Registers.put?_eq hi.1,
        Registers.setFlag?_eq, Registers.skipIf?_eq hskip, Option.bind_eq_bind, Option.bind_some]
      rfl
  | _ =>
      simp only [execute?, Registers.get?_eq hi, Registers.put?_eq hi, Registers.skipIf?_eq hskip,
        Option.bind_eq_bind, Option.bind_some]
      rfl

/-! ## Checked cycles and operations -/

/-- The machine after a cycle that succeeded; the count must stay below `2 ^ 64`. -/
def record? (m : Machine) (i : Instruction) : Option Machine :=
  if m.cycles + 1 < UInt64.size then some (m.record i) else none

/-- A cycle of a running machine. -/
def fetchExecute? (m : Machine) : Option (Except Fault Instruction × Machine) := do
  let address := m.registers.pc
  match ← m.memory.readWord? address with
  | .error e => return (.error (.fetch address e), m.halt)
  | .ok word =>
    let m := m.withRegisters (← m.registers.advance?)
    match word.decode? with
    | none => return (.error (.invalidOpcode address word), m.halt)
    | some i =>
      match ← m.execute? address word i with
      | (.error e, m) => return (.error e, m.halt)
      | (.ok (), m) => return (.ok i, ← m.record? i)

/-- A cycle of a machine blocked on a key. -/
def pollKey? (m : Machine) (register : UInt8) : Option Machine := do
  match ← m.keypad.scan? with
  | some key =>
    return { m with
      registers := ← m.registers.put? register (UInt8.ofNat key)
      status := .running }
  | none => return m

/-- One cycle. -/
def cycle? (m : Machine) : Option (Except Fault Instruction × Machine) :=
  match m.status with
  | .running => m.fetchExecute?
  | .awaitingKey register _ => do
    let m ← m.pollKey? register
    return (.ok (.waitKey register), ← m.record? (.waitKey register))
  | .faulted => return (.error (.notRunning m.status), m)

/-- Run for `n` cycles, or up to the first fault. -/
def run? : Nat → Machine → Option (Option Fault × Machine)
  | 0, m => some (none, m)
  | n + 1, m => do
    match ← m.cycle? with
    | (.ok _, m') => run? n m'
    | (.error e, m') => return (some e, m')

/-- Run for `n` cycles, and count those executed; the count must not have gone back. -/
def runCycles? (m : Machine) (n : Nat) : Option (Except Fault Nat × Machine) := do
  match ← run? n m with
  | (none, m') => if m.cycles ≤ m'.cycles then some (.ok (m'.cycles - m.cycles), m') else none
  | (some e, m') => return (.error e, m')

/-- An operation and its answer. Ticking the timers, taking the repaint mark and resetting access
nothing that could be missing. -/
def perform? (m : Machine) : Operation → Option (Answer × Machine)
  | .event .cycle => do
    let r ← m.cycle?
    return (.cycled r.1, r.2)
  | .event (.key key down) => do
    match ← m.keypad.set? key down with
    | .ok keypad => return (.keyed (.ok ()), { m with keypad })
    | .error e => return (.keyed (.error e), m)
  | .run n => do
    let r ← m.runCycles? n
    return (.ran r.1, r.2)
  | .load program => do
    let r ← m.memory.load? program
    return (.loaded r.1, { m with memory := r.2 })
  | op => some (m.perform op)

/-! ## Reachable machines give up on nothing -/

theorem record?_eq {m : Machine} (h : m.cycles + 1 < UInt64.size) (i : Instruction) :
    m.record? i = some (m.record i) := by
  rw [record?, if_pos h]

theorem pollKey?_eq {m : Machine} {x : UInt8} (hx : x.toNat < 16) :
    m.pollKey? x = some (m.pollKey x) := by
  rw [pollKey?, Keypad.scan?_eq, pollKey]
  cases m.keypad.first? with
  | some key =>
      simp only [Registers.put?_eq hx, Option.bind_eq_bind, Option.bind_some]
      rfl
  | none => rfl

theorem Bounded.fetchExecute?_eq {m : Machine} (h : Bounded m) (hs : m.status = .running)
    (hc : m.cycles + 1 < UInt64.size) : m.fetchExecute? = some m.fetchExecute := by
  rw [fetchExecute?, Memory.readWord?_eq, fetchExecute]
  rcases Nat.lt_or_ge 0xFFE m.registers.pc.toNat with hlt | hle
  · rw [readWord_of_lt hlt]
    rfl
  · rw [readWord_of_le hle]
    have hadvance := Registers.advance?_eq (show m.registers.pc.toNat + 2 < 0x10000 by omega)
    simp only [Option.bind_eq_bind, Option.bind_some, hadvance]
    cases hd : m.word.decode? with
    | none => rfl
    | some i =>
        have hf : Fetched (m.withRegisters m.registers.advance) m.registers.pc := h.fetched hs hle
        simp only [hf.execute?_eq (Word.inRange_of_decode? hd), Option.bind_some]
        cases he : (m.withRegisters m.registers.advance).execute m.registers.pc m.word i with
        | mk r m' =>
            cases r with
            | error e => rfl
            | ok _ =>
                -- an instruction does not count itself, so the room is still there
                rw [show m.cycles = m'.cycles from (cycles_execute he).symm] at hc
                simp only [record?_eq hc, Option.bind_some]
                rfl

/-- **A cycle of a bounded machine gives up on nothing.** -/
theorem Bounded.cycle?_eq {m : Machine} (h : Bounded m) (hc : m.cycles + 1 < UInt64.size) :
    m.cycle? = some m.cycle := by
  unfold cycle? cycle
  cases hs : m.status with
  | running => exact h.fetchExecute?_eq hs hc
  | awaitingKey x a =>
      have hp : (m.pollKey x).cycles = m.cycles := by
        rw [pollKey]
        split <;> rfl
      simp only [pollKey?_eq (h.waiting x a hs).1, Option.bind_eq_bind, Option.bind_some,
        record?_eq (m := m.pollKey x) (hp ▸ hc)]
      rfl
  | faulted => rfl

/-- A cycle that succeeds is counted, and one that fails is not. -/
theorem cycles_cycled {m m' : Machine} {r : Except Fault Instruction} (h : Cycled m r m') :
    m'.cycles = m.cycles + if r.isOk then 1 else 0 := by
  cases h with
  | unfetched _ _ => rfl
  | undecoded _ _ _ => rfl
  | refused _ _ _ he =>
      have := cycles_execute he
      exact this
  | executed _ _ _ he =>
      have := cycles_execute he
      exact congrArg (· + 1) this
  | released _ _ => rfl
  | blocked _ _ => rfl
  | stopped _ => rfl

/-- **Cycles in a row give up on nothing**, as long as their count has room. -/
theorem Bounded.run?_eq {m : Machine} (h : Bounded m) {n : Nat} (hc : m.cycles + n < UInt64.size) :
    run? n m = some (m.run n) := by
  induction n generalizing m with
  | zero => rfl
  | succ n ih =>
      rw [run?, h.cycle?_eq (by omega), run_succ]
      cases hm : m.cycle with
      | mk r m' =>
          have hc' := cycled_of_eq hm
          have hcycles := cycles_cycled hc'
          cases r with
          | error e => rfl
          | ok i =>
              -- the bounds and the room for the count both carry over to the next cycle
              have : m'.cycles + n < UInt64.size := by
                rw [show m'.cycles = m.cycles + 1 from hcycles]
                omega
              exact ih (h.cycled hc') this

/-- A run never takes the count back, and adds at most a cycle for each turn. -/
theorem cycles_run (m : Machine) (n : Nat) :
    m.cycles ≤ (m.run n).2.cycles ∧ (m.run n).2.cycles ≤ m.cycles + n := by
  induction n generalizing m with
  | zero => exact ⟨Nat.le_refl _, Nat.le_refl _⟩
  | succ n ih =>
      rw [run_succ]
      cases hm : m.cycle with
      | mk r m' =>
          have hcycles := cycles_cycled (cycled_of_eq hm)
          cases r with
          | error e =>
              rw [show m'.cycles = m.cycles from hcycles]
              exact ⟨Nat.le_refl _, Nat.le_add_right _ _⟩
          | ok i =>
              have hn := ih m'
              rw [show m'.cycles = m.cycles + 1 from hcycles] at hn
              dsimp only
              omega

/-- An operation counts at most the cycles it asks for. -/
theorem cycles_perform (m : Machine) (op : Operation) :
    (m.perform op).2.cycles ≤ m.cycles + op.cycles := by
  cases op with
  | event e =>
      cases e with
      | cycle =>
          rw [show (m.perform (.event .cycle)).2 = m.cycle.2 from rfl,
            cycles_cycled (cycle_cycled m), Operation.cycles]
          split <;> omega
      | key key down =>
          simp only [perform, handle, setKey]
          cases m.keypad.set key down <;> exact Nat.le_refl _
      | tick => exact Nat.le_refl _
      | repaint => exact Nat.le_refl _
  | run n =>
      rw [show (m.perform (.run n)).2 = (m.runCycles n).2 from rfl, runCycles_snd]
      exact (cycles_run m n).2
  | load program => exact Nat.le_refl _
  | reset => exact Nat.zero_le _

theorem Bounded.runCycles?_eq {m : Machine} (h : Bounded m) {n : Nat}
    (hc : m.cycles + n < UInt64.size) : m.runCycles? n = some (m.runCycles n) := by
  obtain ⟨hle, -⟩ := cycles_run m n
  rw [runCycles?, h.run?_eq hc, runCycles]
  cases hm : m.run n with
  | mk e m' =>
      rw [hm] at hle
      cases e with
      | some e => rfl
      | none =>
          simp only [Option.bind_eq_bind, Option.bind_some]
          exact if_pos hle

/-- **No operation gives up**, on a bounded machine whose cycle count has room. -/
theorem Bounded.perform?_eq {m : Machine} (h : Bounded m) {op : Operation}
    (hc : m.cycles + op.cycles < UInt64.size) : m.perform? op = some (m.perform op) := by
  cases op with
  | event e =>
      cases e with
      | cycle =>
          rw [perform?, h.cycle?_eq hc]
          rfl
      | key key down =>
          rw [perform?, Keypad.set?_eq, perform, handle, setKey]
          cases m.keypad.set key down <;> rfl
      | tick => rfl
      | repaint => rfl
  | run n =>
      have hr := h.runCycles?_eq (show m.cycles + n < UInt64.size from hc)
      rw [perform?, hr]
      rfl
  | load program =>
      rw [perform?, Memory.load?_eq]
      rfl
  | reset => rfl

/--
**Every machine that operations lead to is within its bounds, so no operation on it ever gives up.**

That pixels and keys are lit or not, down or not, is their type. The cycle count
is the one number that grows without end, so it alone needs room.
-/
theorem reachable_checked {seed : UInt64} {m : Machine} (h : Reachable seed m) :
    m.memory.bytes.toList.length = 4096 ∧
    m.screen.pixels.toList.length = 2048 ∧
    m.keypad.down.toList.length = 16 ∧
    m.registers.stack.depth ≤ 16 ∧
    (∀ a ∈ m.registers.stack.live, 0x002 ≤ a.toNat ∧ a.toNat ≤ 0x1000) ∧
    m.registers.pc.toNat ≤ 0x10FE ∧
    (∀ x a, m.status = .awaitingKey x a →
      x.toNat < 16 ∧ a.toNat ≤ 0xFFE ∧ m.registers.pc.toNat = a.toNat + 2) ∧
    ∀ op : Operation, m.cycles + op.cycles < UInt64.size → m.perform? op = some (m.perform op) := by
  have hb := bounded_reachable h
  refine ⟨Vector.length_toList, Vector.length_toList, Vector.length_toList,
    m.registers.stack.depth_le, hb.returns, hb.pc, hb.waiting, ?_⟩
  intro op hc
  exact hb.perform?_eq hc

/-- A machine that was loaded and has taken a cycle. -/
theorem reachable_checked_loaded :
    let m := (((ofSeed 7).perform (.load [0xF0, 0x0A])).2.perform (.event .cycle)).2
    Reachable 7 m ∧ m.cycles + Operation.cycles (.run 1000) < UInt64.size ∧
      m.registers.pc.toNat ≤ 0x10FE ∧ m.perform? (.run 1000) = some (m.perform (.run 1000)) := by
  intro m
  have hr : Reachable 7 m := (Reachable.powerOn.perform _).perform _
  have hc : m.cycles + Operation.cycles (.run 1000) < UInt64.size := by
    have hload := cycles_perform (ofSeed 7) (.load [0xF0, 0x0A])
    have hcycle : m.cycles ≤ _ + 1 := cycles_perform _ (.event .cycle)
    have hsize : 2000 < UInt64.size := by decide
    simp only [Operation.cycles, show (ofSeed 7).cycles = 0 from rfl] at hload ⊢
    omega
  obtain ⟨-, -, -, -, -, hpc, -, hop⟩ := reachable_checked hr
  exact ⟨hr, hc, hpc, hop _ hc⟩

end ChipEight.Machine
