import ChipEight.Machine.Basic

/-!
# Execution

A cycle fetches the word at the program counter, moves the counter past it,
decodes the word and executes the instruction. `Machine.execute` has one case
for each instruction. It answers whether the instruction was refused, and in
either case gives the machine that the instruction leaves behind.

Instructions with a flag write `VF` last, so that the flag wins when `VF` is
also the destination. A key wait with no key down blocks the machine: later
cycles only look for a key and report the key wait again.
-/

namespace ChipEight.Machine

/-- The machine with other registers. -/
def withRegisters (m : Machine) (registers : Registers) : Machine :=
  { m with registers }

/-- The instruction was carried out and leaves a machine. -/
def accept (m : Machine) : Except Fault Unit × Machine :=
  (.ok (), m)

/-- The instruction was refused and leaves a machine. -/
def refuse (m : Machine) (e : Fault) : Except Fault Unit × Machine :=
  (.error e, m)

/-- Execute an instruction that reads bytes at `I`, if they lie in memory. -/
def reading (m : Machine) (address : UInt16) (word : Word) (len : Nat)
    (act : List UInt8 → Machine) : Except Fault Unit × Machine :=
  match m.memory.slice m.registers.i len with
  | .ok data => accept (act data)
  | .error e => m.refuse (.memory address word e)

/-- Execute an instruction that writes bytes at `I`, if they lie in memory. -/
def writing (m : Machine) (address : UInt16) (word : Word) (data : List UInt8)
    (registers : Registers) : Except Fault Unit × Machine :=
  match m.memory.write m.registers.i data with
  | .ok memory => accept { m with memory, registers }
  | .error e => m.refuse (.memory address word e)

/-- Execute an instruction that asks for a key, if there is such a key. -/
def asking (m : Machine) (address : UInt16) (word : Word) (key : UInt8)
    (act : Bool → Registers) : Except Fault Unit × Machine :=
  match m.keypad.pressed key with
  | .ok down => accept (m.withRegisters (act down))
  | .error e => m.refuse (.invalidKey address word e.key)

/-- The three decimal digits of a byte. -/
def decimalDigits (a : UInt8) : List UInt8 :=
  [a / 100, a / 10 % 10, a % 10]

/-- Execute an instruction that was fetched from `address` as `word`: whether it was refused,
and the machine it leaves. The program counter already points past it. -/
def execute (m : Machine) (address : UInt16) (word : Word) :
    Instruction → Except Fault Unit × Machine
  | .clear => accept { m with screen := m.screen.clear }
  | .draw x y n =>
    let left := (m.registers.get x).toNat
    let top := (m.registers.get y).toNat
    m.reading address word n.toNat fun rows =>
      { m with
        screen := m.screen.draw left top rows
        registers := m.registers.setFlag (m.screen.collides left top rows) }
  | .ret =>
    match m.registers.pop with
    | .ok (addr, registers) => accept (m.withRegisters (registers.jump addr))
    | .error e => m.refuse (.ofStack address word e)
  | .jump addr => accept (m.withRegisters (m.registers.jump addr))
  | .call addr =>
    match m.registers.push m.registers.pc with
    | .ok registers => accept (m.withRegisters (registers.jump addr))
    | .error e => m.refuse (.ofStack address word e)
  | .jumpOffset addr =>
    accept (m.withRegisters (m.registers.jump (addr + (m.registers.get 0).toUInt16)))
  | .skipEqByte x nn =>
    accept (m.withRegisters (m.registers.skipIf (m.registers.get x == nn)))
  | .skipNeByte x nn =>
    accept (m.withRegisters (m.registers.skipIf (m.registers.get x != nn)))
  | .skipEqReg x y =>
    accept (m.withRegisters (m.registers.skipIf (m.registers.get x == m.registers.get y)))
  | .skipNeReg x y =>
    accept (m.withRegisters (m.registers.skipIf (m.registers.get x != m.registers.get y)))
  | .loadByte x nn => accept (m.withRegisters (m.registers.put x nn))
  | .addByte x nn => accept (m.withRegisters (m.registers.put x (m.registers.get x + nn)))
  | .copy x y => accept (m.withRegisters (m.registers.put x (m.registers.get y)))
  | .or x y =>
    accept (m.withRegisters (m.registers.put x (m.registers.get x ||| m.registers.get y)))
  | .and x y =>
    accept (m.withRegisters (m.registers.put x (m.registers.get x &&& m.registers.get y)))
  | .xor x y =>
    accept (m.withRegisters (m.registers.put x (m.registers.get x ^^^ m.registers.get y)))
  | .add x y =>
    let a := m.registers.get x
    let b := m.registers.get y
    accept (m.withRegisters ((m.registers.put x (a + b)).setFlag (256 ≤ a.toNat + b.toNat)))
  | .sub x y =>
    let a := m.registers.get x
    let b := m.registers.get y
    accept (m.withRegisters ((m.registers.put x (a - b)).setFlag (b ≤ a)))
  | .shiftRight x y =>
    let b := m.registers.get y
    accept (m.withRegisters ((m.registers.put x (b >>> 1)).setFlag (b.toNat.testBit 0)))
  | .subFrom x y =>
    let a := m.registers.get x
    let b := m.registers.get y
    accept (m.withRegisters ((m.registers.put x (b - a)).setFlag (a ≤ b)))
  | .shiftLeft x y =>
    let b := m.registers.get y
    accept (m.withRegisters ((m.registers.put x (b <<< 1)).setFlag (b.toNat.testBit 7)))
  | .random x nn =>
    accept { m with
      registers := m.registers.put x (m.random.peek &&& nn)
      random := m.random.advance }
  | .setIndex addr => accept (m.withRegisters { m.registers with i := addr })
  | .addIndex x =>
    accept (m.withRegisters
      { m.registers with i := m.registers.i + (m.registers.get x).toUInt16 })
  | .fontIndex x =>
    let digit := (m.registers.get x).toUInt16 % 16
    accept (m.withRegisters
      { m.registers with i := Memory.fontStart + digit * Memory.fontHeight })
  | .storeDecimal x =>
    m.writing address word (decimalDigits (m.registers.get x)) m.registers
  | .storeRegisters x =>
    let data := m.registers.upTo x
    m.writing address word data
      { m.registers with i := m.registers.i + UInt16.ofNat data.length }
  | .loadRegisters x =>
    let len := (m.registers.upTo x).length
    m.reading address word len fun data =>
      m.withRegisters { m.registers.fill data with i := m.registers.i + UInt16.ofNat len }
  | .skipPressed x =>
    m.asking address word (m.registers.get x) fun down => m.registers.skipIf down
  | .skipReleased x =>
    m.asking address word (m.registers.get x) fun down => m.registers.skipIf !down
  | .waitKey x =>
    match m.keypad.first? with
    | some key => accept (m.withRegisters (m.registers.put x (UInt8.ofNat key)))
    | none => accept { m with status := .awaitingKey x address }
  | .readDelay x => accept (m.withRegisters (m.registers.put x m.registers.delay))
  | .setDelay x => accept (m.withRegisters { m.registers with delay := m.registers.get x })
  | .setSound x => accept (m.withRegisters { m.registers with sound := m.registers.get x })

/-- The machine after a cycle that succeeded with an instruction. -/
def record (m : Machine) (i : Instruction) : Machine :=
  { m with cycles := m.cycles + 1, lastInstruction := some i }

/-- The machine after a fault. -/
def halt (m : Machine) : Machine :=
  { m with status := .faulted }

/-- A cycle of a running machine: fetch, step past the word, decode, execute. -/
def fetchExecute (m : Machine) : Except Fault Instruction × Machine :=
  let address := m.registers.pc
  match m.memory.readWord address with
  | .error e => (.error (.fetch address e), m.halt)
  | .ok word =>
    let m := m.withRegisters m.registers.advance
    match word.decode? with
    | none => (.error (.invalidOpcode address word), m.halt)
    | some i =>
      match m.execute address word i with
      | (.error e, m) => (.error e, m.halt)
      | (.ok (), m) => (.ok i, m.record i)

/-- A cycle of a machine blocked on a key: the lowest key that is down ends the wait. -/
def pollKey (m : Machine) (register : UInt8) : Machine :=
  match m.keypad.first? with
  | some key =>
    { m with registers := m.registers.put register (UInt8.ofNat key), status := .running }
  | none => m

/-- One cycle: the instruction executed or the fault, and the machine after it. -/
def cycle (m : Machine) : Except Fault Instruction × Machine :=
  match m.status with
  | .running => m.fetchExecute
  | .awaitingKey register _ =>
    (.ok (.waitKey register), (m.pollKey register).record (.waitKey register))
  | .faulted => (.error (.notRunning m.status), m)

/-- Run for `n` cycles, or up to the first fault. An observer sees the address and the
instruction of every cycle that succeeds. -/
def runWith {σ : Type} (observe : UInt16 → Instruction → σ → σ) :
    Nat → σ → Machine → σ × Option Fault × Machine
  | 0, s, m => (s, none, m)
  | n + 1, s, m =>
    let address := m.instructionAddress
    match m.cycle with
    | (.ok i, m') => runWith observe n (observe address i s) m'
    | (.error e, m') => (s, some e, m')

/-- Run for `n` cycles, or up to the first fault. -/
def run (n : Nat) (m : Machine) : Option Fault × Machine :=
  (runWith (fun _ _ s => s) n () m).2

/-- Run for `n` cycles, and count those executed unless one fails. -/
def runCycles (m : Machine) (n : Nat) : Except Fault Nat × Machine :=
  match m.run n with
  | (none, m') => (.ok (m'.cycles - m.cycles), m')
  | (some e, m') => (.error e, m')

end ChipEight.Machine
