import ChipEight.Machine.CallStack
import ChipEight.Machine.Memory
import ChipEight.Text

/-!
# Registers

The sixteen byte registers `V0` to `VF`, of which `VF` doubles as the flag,
the index register `I`, the program counter, the call stack and the two
timers. Register numbers are bytes of which the low nibble counts.
-/

namespace ChipEight

/-- The register file. -/
structure Registers where
  /-- `V0` to `VF`. -/
  v : Vector UInt8 16
  /-- The index register. -/
  i : UInt16
  /-- The address of the next word to fetch. -/
  pc : UInt16
  /-- The return addresses. -/
  stack : CallStack
  /-- The delay timer. -/
  delay : UInt8
  /-- The sound timer; a tone plays while it is not zero. -/
  sound : UInt8
deriving DecidableEq

namespace Registers

/-- The registers at power-on. -/
def powerOn : Registers :=
  { v := Vector.replicate 16 0, i := 0, pc := Memory.programStart, stack := .empty,
    delay := 0, sound := 0 }

/-- The register that a number names. -/
def slot (x : UInt8) : Fin 16 :=
  ⟨x.toNat % 16, Nat.mod_lt _ (by decide)⟩

/-- The value of register `x`. -/
def get (r : Registers) (x : UInt8) : UInt8 :=
  r.v[slot x]

/-- The registers with `a` in register `x`. -/
def put (r : Registers) (x a : UInt8) : Registers :=
  { r with v := r.v.set (slot x) a }

/-- The number of the flag register. -/
def flag : UInt8 := 0xF

/-- The registers with `VF` one or zero. -/
def setFlag (r : Registers) (b : Bool) : Registers :=
  r.put flag (if b then 1 else 0)

/-- Move the program counter past one word. -/
def advance (r : Registers) : Registers :=
  { r with pc := r.pc + 2 }

/-- Pass over the next word if a condition holds. -/
def skipIf (r : Registers) (c : Bool) : Registers :=
  if c then r.advance else r

/-- Move the program counter to an address. -/
def jump (r : Registers) (addr : UInt16) : Registers :=
  { r with pc := addr }

/-- Add a return address. -/
def push (r : Registers) (addr : UInt16) : Except StackError Registers :=
  match r.stack.push addr with
  | .ok stack => .ok { r with stack }
  | .error e => .error e

/-- Take the last return address off the stack. -/
def pop (r : Registers) : Except StackError (UInt16 × Registers) :=
  match r.stack.pop with
  | .ok (addr, stack) => .ok (addr, { r with stack })
  | .error e => .error e

/-- `V0` to `VX`. -/
def upTo (r : Registers) (x : UInt8) : List UInt8 :=
  r.v.toList.take ((slot x).val + 1)

/-- Put bytes into `V0`, `V1`, and so on. -/
def fill (r : Registers) (values : List UInt8) : Registers :=
  { r with v := Vector.ofFn fun k => values[k.val]?.getD (r.v.get k) }

/-- Count both timers down by one; a timer at zero stays there. -/
def tick (r : Registers) : Registers :=
  { r with
    delay := if r.delay = 0 then 0 else r.delay - 1
    sound := if r.sound = 0 then 0 else r.sound - 1 }

/-- Whether the tone plays. -/
def sounding (r : Registers) : Bool :=
  decide (r.sound ≠ 0)

/-- The register file in words. -/
def describe (r : Registers) : String :=
  Record.describe "Registers" [
    ("v", Record.bracketed (r.v.toList.map fun b => decimal b.toNat)),
    ("i", decimal r.i.toNat),
    ("pc", decimal r.pc.toNat),
    ("stack", Record.bracketed (r.stack.slots.toList.map fun a => decimal a.toNat)),
    ("sp", decimal r.stack.depth),
    ("delay_timer", decimal r.delay.toNat),
    ("sound_timer", decimal r.sound.toNat)]

/-- Writing a register changes that register alone. -/
theorem get_put (r : Registers) (x y a : UInt8) :
    (r.put x a).get y = if slot x = slot y then a else r.get y := by
  simp only [get, put, Fin.getElem_fin, Vector.getElem_set, Fin.ext_iff]

theorem slot_val {x : UInt8} (h : x.toNat < 16) : (slot x).val = x.toNat :=
  Nat.mod_eq_of_lt h

/-- Numbers that fit a nibble name different registers. -/
theorem slot_inj {x y : UInt8} (hx : x.toNat < 16) (hy : y.toNat < 16) :
    slot x = slot y ↔ x = y := by
  rw [Fin.ext_iff, slot_val hx, slot_val hy, UInt8.toNat_inj]

theorem get_put_self (r : Registers) (x a : UInt8) : (r.put x a).get x = a := by
  rw [get_put, if_pos rfl]

theorem get_put_of_ne (r : Registers) {x y : UInt8} (a : UInt8) (hx : x.toNat < 16)
    (hy : y.toNat < 16) (h : y ≠ x) : (r.put x a).get y = r.get y := by
  rw [get_put, if_neg fun he => h ((slot_inj hx hy).mp he).symm]

theorem get_flag_setFlag (r : Registers) (b : Bool) :
    (r.setFlag b).get 0xF = if b then 1 else 0 := by
  rw [setFlag, get_put]
  exact if_pos rfl

theorem get_setFlag_of_lt (r : Registers) (b : Bool) {x : UInt8} (h : x.toNat < 15) :
    (r.setFlag b).get x = r.get x := by
  have hne : slot flag ≠ slot x := by
    simp only [slot, flag, Ne, Fin.mk.injEq, UInt8.reduceToNat]
    omega
  rw [setFlag, get_put, if_neg hne]

theorem length_upTo_slot (r : Registers) (x : UInt8) : (r.upTo x).length = (slot x).val + 1 := by
  simp only [upTo, List.length_take, Vector.length_toList]
  omega

theorem getElem?_upTo (r : Registers) {x z : UInt8} (h : slot z ≤ slot x) :
    (r.upTo x)[(slot z).val]? = some (r.get z) := by
  have hz : (slot z).val < (slot x).val + 1 := Nat.lt_succ_of_le h
  simp [upTo, get, hz]

/-- Filling registers changes as many of them as there are bytes. -/
theorem get_fill (r : Registers) (values : List UInt8) (z : UInt8) :
    (r.fill values).get z = values[(slot z).val]?.getD (r.get z) := by
  simp only [get, fill, Fin.getElem_fin, Vector.getElem_ofFn]
  rfl

@[simp] theorem fill_pc (r : Registers) (values : List UInt8) : (r.fill values).pc = r.pc := by
  simp only [fill]

@[simp] theorem fill_stack (r : Registers) (values : List UInt8) :
    (r.fill values).stack = r.stack := by
  simp only [fill]

end Registers

end ChipEight
