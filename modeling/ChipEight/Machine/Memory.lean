import ChipEight.Instruction.Word
import ChipEight.Text

/-!
# Memory

Memory is 4096 bytes. Below `0x200` it belongs to the interpreter and holds
the font; programs are loaded from `0x200` on.

Every access names a range and is granted only if the whole range lies in
memory: nothing is clamped and nothing wraps. A write either stores all its
bytes or is refused and stores none. Only `dump`, which feeds the views of a
debugger, cuts its range at the end of memory. What an operation does is read
off `Memory.byte`, the byte at an address.
-/

namespace ChipEight

/-- Why an access to memory was refused. -/
inductive MemoryError where
  /-- The `len` bytes from `addr` on do not all lie in memory. -/
  | outOfRange (addr : UInt16) (len : Nat)
  /-- A program of `size` bytes does not fit above the load address. -/
  | programTooLarge (size available : Nat)
deriving DecidableEq

/-- The refusal in words. -/
def MemoryError.message : MemoryError → String
  | outOfRange addr len =>
    "memory access of " ++ decimal len ++ " byte(s) at " ++ Hex.address addr.toNat ++
      " out of range (0x000-0xfff)"
  | programTooLarge size available =>
    "program size " ++ decimal size ++ " exceeds available space " ++ decimal available

/-- The 4096 bytes of memory. -/
structure Memory where
  /-- The bytes by address. -/
  bytes : Vector UInt8 4096
deriving DecidableEq

namespace Memory

/-- The number of bytes. -/
def size : Nat := 4096

/-- The address at which programs are loaded and started. -/
def programStart : UInt16 := 0x200

/-- The number of bytes above the load address. -/
def programSpace : Nat := size - programStart.toNat

/-- The address of the first font sprite. -/
def fontStart : UInt16 := 0x050

/-- The number of bytes, and so of pixel rows, in a font sprite. -/
def fontHeight : UInt16 := 5

/-- The sprites of the sixteen hexadecimal digits, four pixels wide. -/
def font : List UInt8 := [
  0xF0, 0x90, 0x90, 0x90, 0xF0,
  0x20, 0x60, 0x20, 0x20, 0x70,
  0xF0, 0x10, 0xF0, 0x80, 0xF0,
  0xF0, 0x10, 0xF0, 0x10, 0xF0,
  0x90, 0x90, 0xF0, 0x10, 0x10,
  0xF0, 0x80, 0xF0, 0x10, 0xF0,
  0xF0, 0x80, 0xF0, 0x90, 0xF0,
  0xF0, 0x10, 0x20, 0x40, 0x40,
  0xF0, 0x90, 0xF0, 0x90, 0xF0,
  0xF0, 0x90, 0xF0, 0x10, 0xF0,
  0xF0, 0x90, 0xF0, 0x90, 0x90,
  0xE0, 0x90, 0xE0, 0x90, 0xE0,
  0xF0, 0x80, 0x80, 0x80, 0xF0,
  0xE0, 0x90, 0x90, 0x90, 0xE0,
  0xF0, 0x80, 0xF0, 0x80, 0xF0,
  0xF0, 0x80, 0xF0, 0x80, 0x80]

/-- The byte at an address; memory reads as zero past its end. -/
def byte (m : Memory) (a : Nat) : UInt8 :=
  m.bytes[a]?.getD 0

/-- Store bytes from address `a` on. Bytes past the end of memory are dropped; the operations
that may fail check the range before they store. -/
def store (m : Memory) (a : Nat) : List UInt8 → Memory
  | [] => m
  | b :: rest => store ⟨m.bytes.setIfInBounds a b⟩ (a + 1) rest

/-- The bytes at `a`, `a + 1`, …, `a + len - 1`. -/
def span (m : Memory) (a len : Nat) : List UInt8 :=
  (List.range' a len).map m.byte

/-- Memory at power-on: the font, and zero elsewhere. -/
def powerOn : Memory :=
  store ⟨Vector.replicate 4096 0⟩ fontStart.toNat font

/-- The byte at an address. -/
def read (m : Memory) (addr : UInt16) : Except MemoryError UInt8 :=
  if addr.toNat < size then .ok (m.byte addr.toNat) else .error (.outOfRange addr 1)

/-- The big-endian word at an address. -/
def readWord (m : Memory) (addr : UInt16) : Except MemoryError Word :=
  if addr.toNat + 2 ≤ size then
    .ok (.ofBytes (m.byte addr.toNat) (m.byte (addr.toNat + 1)))
  else .error (.outOfRange addr 2)

/-- The `len` bytes from an address on. -/
def slice (m : Memory) (addr : UInt16) (len : Nat) : Except MemoryError (List UInt8) :=
  if addr.toNat + len ≤ size then .ok (m.span addr.toNat len) else .error (.outOfRange addr len)

/-- Write bytes from an address on. -/
def write (m : Memory) (addr : UInt16) (data : List UInt8) : Except MemoryError Memory :=
  if addr.toNat + data.length ≤ size then .ok (m.store addr.toNat data)
  else .error (.outOfRange addr data.length)

/-- Load a program image: whether it was refused, and memory after it. Bytes of memory beyond the
image keep their values. -/
def load (m : Memory) (program : List UInt8) : Except MemoryError Unit × Memory :=
  if program.length ≤ programSpace then (.ok (), m.store programStart.toNat program)
  else (.error (.programTooLarge program.length programSpace), m)

/-- The addresses from `start` on, at most `count` and none past the end of memory, each with
its byte. Where the window ends is a word of 64 bits, so the sum wraps. -/
def dump (m : Memory) (start count : UInt64) : List (Nat × UInt8) :=
  (List.range' start.toNat (min (start + count).toNat size - start.toNat)).map fun a =>
    (a, m.byte a)

/-- How many bytes above the load address are not zero. -/
def occupied (m : Memory) : Nat :=
  (m.span programStart.toNat programSpace).countP (· ≠ 0)

/-- Memory in words. -/
def describe (m : Memory) : String :=
  Record.describe "Memory" [
    ("non_zero_program_bytes", decimal m.occupied), ("total_bytes", decimal size)]

/-! ## Bytes after a store -/

theorem byte_setIfInBounds (m : Memory) (a k : Nat) (b : UInt8) :
    (Memory.mk (m.bytes.setIfInBounds a b)).byte k =
      if a = k ∧ k < size then b else m.byte k := by
  simp only [byte, Vector.getElem?_setIfInBounds, size]
  by_cases h : a = k
  · subst h
    by_cases hk : a < 4096 <;> simp [hk]
  · simp [h]

/-- What a store does: the bytes stored stand at their addresses, as far as memory goes, and all
others are as before. -/
theorem byte_store (m : Memory) (a k : Nat) (data : List UInt8) :
    (m.store a data).byte k =
      if a ≤ k ∧ k < a + data.length ∧ k < size then data[k - a]?.getD 0 else m.byte k := by
  induction data generalizing m a with
  | nil =>
    have : ¬(a ≤ k ∧ k < a + 0 ∧ k < size) := by omega
    simp [store]
    omega
  | cons b rest ih =>
    rw [store, ih, byte_setIfInBounds, List.length_cons]
    by_cases h : a = k
    · subst h
      have : ¬(a + 1 ≤ a ∧ a < a + 1 + rest.length ∧ a < size) := by omega
      rw [if_neg this]
      by_cases hs : a < size <;> simp [hs]
    · by_cases hr : a + 1 ≤ k ∧ k < a + 1 + rest.length ∧ k < size
      · have hk : k - a = (k - (a + 1)) + 1 := by omega
        rw [if_pos hr, if_pos (by omega), hk, List.getElem?_cons_succ]
      · rw [if_neg hr, if_neg (by omega), if_neg (by omega)]

/-- A byte of what was stored, read back. -/
theorem byte_store_of_getElem? (m : Memory) {a k : Nat} {data : List UInt8} {b : UInt8}
    (h : a + data.length ≤ size) (hk : data[k]? = some b) : (m.store a data).byte (a + k) = b := by
  obtain ⟨hlt, -⟩ := List.getElem?_eq_some_iff.mp hk
  rw [byte_store, if_pos (by omega), Nat.add_sub_cancel_left, hk, Option.getD_some]

/-- A byte before or after what was stored. -/
theorem byte_store_of_outside (m : Memory) {a k : Nat} {data : List UInt8}
    (h : k < a ∨ a + data.length ≤ k) : (m.store a data).byte k = m.byte k := by
  rw [byte_store, if_neg (by omega)]

@[simp] theorem length_span (m : Memory) (a len : Nat) : (m.span a len).length = len := by
  simp [span]

theorem getElem?_span (m : Memory) {a len k : Nat} (h : k < len) :
    (m.span a len)[k]? = some (m.byte (a + k)) := by
  simp [span, h]

/-- Bytes of a store, read back from somewhere in it. -/
theorem span_store_part (m : Memory) {a k len : Nat} {data : List UInt8}
    (h : a + data.length ≤ size) (hk : k + len ≤ data.length) :
    (m.store a data).span (a + k) len = (data.drop k).take len := by
  apply List.ext_getElem?
  intro i
  by_cases hi : i < len
  · have hget := List.getElem?_eq_getElem (l := data) (i := k + i) (by omega)
    rw [getElem?_span _ hi, Nat.add_assoc, byte_store_of_getElem? m h hget,
      List.getElem?_take_of_lt hi, List.getElem?_drop, hget]
  · rw [List.getElem?_eq_none (by simp only [length_span]; omega), List.getElem?_eq_none]
    simp only [List.length_take, List.length_drop]
    omega

/-- A store read back. -/
theorem span_store (m : Memory) {a : Nat} {data : List UInt8} (h : a + data.length ≤ size) :
    (m.store a data).span a data.length = data := by
  have hall := m.span_store_part h (Nat.le_of_eq (Nat.zero_add data.length))
  rwa [Nat.add_zero, List.drop_zero, List.take_length] at hall

/-! ## What a load does -/

/-- A program that fits is stored. -/
theorem load_of_le (m : Memory) {program : List UInt8} (h : program.length ≤ programSpace) :
    m.load program = (.ok (), m.store programStart.toNat program) :=
  if_pos h

/-- A program that does not fit is refused, and no byte changes. -/
theorem load_of_lt (m : Memory) {program : List UInt8} (h : programSpace < program.length) :
    m.load program = (.error (.programTooLarge program.length programSpace), m) :=
  if_neg (Nat.not_le.mpr h)

end Memory

end ChipEight
