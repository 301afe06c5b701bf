import ChipEight.Machine.Execution
import ChipEight.Proofs.Drawing

/-!
# Accesses that may go wrong

The operations of the library are total. A register number counts by its low
nibble, a byte past the end of memory reads as zero, a store past it is dropped,
and sixteen-bit sums wrap. Each of these conventions could hide a mistake, so
this module has, beside each total operation, one that gives up (`none`) where a
convention would be needed, and the bound under which the two are the same.

They are named by a question mark. `ChipEight.Proofs.CheckedMachine` builds a
machine of them.
-/

namespace ChipEight

/-! ## Lists and vectors -/

theorem mapM_eq_some {α β : Type} {f : α → Option β} {g : α → β} {l : List α}
    (h : ∀ x ∈ l, f x = some (g x)) : l.mapM f = some (l.map g) := by
  induction l with
  | nil => rfl
  | cons x l ih =>
      rw [List.mapM_cons, h x List.mem_cons_self, ih fun y hy => h y (List.mem_cons_of_mem x hy)]
      rfl

theorem foldlM_eq_some {α σ : Type} {f : σ → α → Option σ} {g : σ → α → σ} {l : List α}
    (h : ∀ s, ∀ x ∈ l, f s x = some (g s x)) (s : σ) : l.foldlM f s = some (l.foldl g s) := by
  induction l generalizing s with
  | nil => rfl
  | cons x l ih =>
      rw [List.foldlM_cons, h s x List.mem_cons_self]
      exact ih (fun s y hy => h s y (List.mem_cons_of_mem x hy)) (g s x)

theorem set_eq_setIfInBounds {α : Type} {n : Nat} (xs : Vector α n) (a : α) {i : Nat}
    (h : i < n) : xs.set i a = xs.setIfInBounds i a := by
  refine Vector.ext fun j hj => ?_
  rw [Vector.getElem_set, Vector.getElem_setIfInBounds hj]

/-! ## Sixteen-bit numbers -/

/-- A sum that must not wrap. -/
def sum? (a b : UInt16) : Option UInt16 :=
  if a.toNat + b.toNat < 0x10000 then some (a + b) else none

/-- A product that must not wrap. -/
def product? (a b : UInt16) : Option UInt16 :=
  if a.toNat * b.toNat < 0x10000 then some (a * b) else none

/-! ## Registers -/

namespace Registers

/-- The value of register `x`, which must exist. -/
def get? (r : Registers) (x : UInt8) : Option UInt8 :=
  r.v[x.toNat]?

/-- The registers with `a` in register `x`, which must exist. -/
def put? (r : Registers) (x a : UInt8) : Option Registers :=
  if h : x.toNat < 16 then some { r with v := r.v.set x.toNat a } else none

/-- The registers with `VF` one or zero. -/
def setFlag? (r : Registers) (b : Bool) : Option Registers :=
  r.put? flag (if b then 1 else 0)

/-- Move the program counter past one word; it must not wrap. -/
def advance? (r : Registers) : Option Registers :=
  (sum? r.pc 2).map r.jump

/-- Pass over the next word if a condition holds. -/
def skipIf? (r : Registers) (c : Bool) : Option Registers :=
  if c then r.advance? else some r

/-- The first `count` registers, which must exist. -/
def first? (r : Registers) (count : Nat) : Option (List UInt8) :=
  if count ≤ 16 then some (r.v.toList.take count) else none

/-- Put bytes into the first `count` registers, which must be as many. -/
def fill? (r : Registers) (count : Nat) (values : List UInt8) : Option Registers :=
  if count ≤ 16 ∧ values.length = count then some (r.fill values) else none

variable {r : Registers} {x : UInt8}

theorem get?_eq (h : x.toNat < 16) : r.get? x = some (r.get x) := by
  simp only [get?, get, Fin.getElem_fin, slot_val h, Vector.getElem?_eq_getElem h]

theorem put?_eq (h : x.toNat < 16) (a : UInt8) : r.put? x a = some (r.put x a) := by
  simp only [put?, put, h, dite_true, slot_val h]

theorem setFlag?_eq (b : Bool) : r.setFlag? b = some (r.setFlag b) :=
  put?_eq (by decide) _

theorem advance?_eq (h : r.pc.toNat + 2 < 0x10000) : r.advance? = some r.advance := by
  have : r.pc.toNat + (2 : UInt16).toNat < 0x10000 := h
  simp only [advance?, sum?, if_pos this, Option.map_some]
  rfl

theorem skipIf?_eq (h : r.pc.toNat + 2 < 0x10000) (c : Bool) :
    r.skipIf? c = some (r.skipIf c) := by
  cases c with
  | false => rfl
  | true => exact advance?_eq h

theorem first?_eq (h : x.toNat < 16) : r.first? (x.toNat + 1) = some (r.upTo x) := by
  have : x.toNat + 1 ≤ 16 := h
  simp only [first?, if_pos this, upTo, slot_val h]

end Registers

/-! ## Memory -/

namespace Memory

/-- The `len` bytes from `a` on, all of which must exist. -/
def span? (m : Memory) (a len : Nat) : Option (List UInt8) :=
  (List.range' a len).mapM fun k => m.bytes[k]?

/-- Store bytes from `a` on, where all of them must have a place. -/
def store? (m : Memory) (a : Nat) : List UInt8 → Option Memory
  | [] => some m
  | b :: rest => if h : a < 4096 then store? ⟨m.bytes.set a b⟩ (a + 1) rest else none

/-- The big-endian word at an address. -/
def readWord? (m : Memory) (addr : UInt16) : Option (Except MemoryError Word) :=
  if addr.toNat + 2 ≤ size then do
    let hi ← m.bytes[addr.toNat]?
    let lo ← m.bytes[addr.toNat + 1]?
    return .ok (.ofBytes hi lo)
  else return .error (.outOfRange addr 2)

/-- The `len` bytes from an address on. -/
def slice? (m : Memory) (addr : UInt16) (len : Nat) : Option (Except MemoryError (List UInt8)) :=
  if addr.toNat + len ≤ size then do return .ok (← m.span? addr.toNat len)
  else return .error (.outOfRange addr len)

/-- Write bytes from an address on. -/
def write? (m : Memory) (addr : UInt16) (data : List UInt8) : Option (Except MemoryError Memory) :=
  if addr.toNat + data.length ≤ size then do return .ok (← m.store? addr.toNat data)
  else return .error (.outOfRange addr data.length)

/-- Load a program image. -/
def load? (m : Memory) (program : List UInt8) : Option (Except MemoryError Unit × Memory) :=
  if program.length ≤ programSpace then do
    return (.ok (), ← m.store? programStart.toNat program)
  else return (.error (.programTooLarge program.length programSpace), m)

theorem getElem?_bytes (m : Memory) {a : Nat} (h : a < size) : m.bytes[a]? = some (m.byte a) := by
  have : a < 4096 := h
  simp only [byte, Vector.getElem?_eq_getElem this, Option.getD_some]

theorem span?_eq (m : Memory) {a len : Nat} (h : a + len ≤ size) :
    m.span? a len = some (m.span a len) := by
  refine mapM_eq_some fun k hk => m.getElem?_bytes ?_
  have := List.mem_range'_1.mp hk
  omega

theorem store?_eq (m : Memory) {a : Nat} {data : List UInt8} (h : a + data.length ≤ size) :
    m.store? a data = some (m.store a data) := by
  induction data generalizing m a with
  | nil => rfl
  | cons b rest ih =>
      rw [List.length_cons] at h
      have ha : a < 4096 := by
        have : size = 4096 := rfl
        omega
      rw [store?, dif_pos ha, ih _ (by omega), store, set_eq_setIfInBounds]

theorem readWord?_eq (m : Memory) (addr : UInt16) : m.readWord? addr = some (m.readWord addr) := by
  unfold readWord? readWord
  split
  · rw [m.getElem?_bytes (by omega), m.getElem?_bytes (by omega)]
    rfl
  · rfl

theorem slice?_eq (m : Memory) (addr : UInt16) (len : Nat) :
    m.slice? addr len = some (m.slice addr len) := by
  unfold slice? slice
  split
  · rename_i h
    rw [m.span?_eq h]
    rfl
  · rfl

theorem length_slice {m : Memory} {addr : UInt16} {len : Nat} {data : List UInt8}
    (h : m.slice addr len = .ok data) : data.length = len := by
  unfold slice at h
  split at h
  · cases h
    exact m.length_span _ _
  · cases h

theorem write?_eq (m : Memory) (addr : UInt16) (data : List UInt8) :
    m.write? addr data = some (m.write addr data) := by
  unfold write? write
  split
  · rename_i h
    rw [m.store?_eq h]
    rfl
  · rfl

theorem load?_eq (m : Memory) (program : List UInt8) :
    m.load? program = some (m.load program) := by
  unfold load? load
  split
  · rename_i h
    have : programStart.toNat + program.length ≤ size := by
      have : programSpace = size - programStart.toNat := rfl
      have : programStart.toNat ≤ size := by decide
      omega
    rw [m.store?_eq this]
    rfl
  · rfl

end Memory

/-! ## Screen -/

namespace Screen

/-- The place of a position in the buffer. -/
def place (p : Nat × Nat) : Nat :=
  width * p.2 + p.1

/-- Whether the pixel at a position is lit; it must have a place. -/
def lit? (s : Screen) (p : Nat × Nat) : Option Bool :=
  s.pixels[place p]?

/-- Flip the pixel at a position; it must have a place. -/
def flip? (s : Screen) (p : Nat × Nat) : Option Screen :=
  if h : place p < 2048 then some { s with pixels := s.pixels.set (place p) !s.pixels[place p] }
  else none

/-- Draw a sprite. -/
def draw? (s : Screen) (x y : Nat) (rows : List UInt8) : Option Screen := do
  let s ← (cells x y rows).foldlM flip? s
  return { s with dirty := true }

/-- Whether a sprite, if drawn, would turn a lit pixel off. -/
def collides? (s : Screen) (x y : Nat) (rows : List UInt8) : Option Bool := do
  return (← (cells x y rows).mapM s.lit?).any id

theorem place_lt {p : Nat × Nat} (h : Within p.1 p.2) : place p < 2048 := by
  simp only [Within, width, height] at h
  simp only [place, width]
  omega

theorem lit?_eq {s : Screen} {p : Nat × Nat} (h : Within p.1 p.2) :
    s.lit? p = some (s.pixel p.1 p.2) := by
  have hp : width * p.2 + p.1 < 2048 := place_lt h
  simp only [lit?, place, pixel, h, decide_true, Bool.true_and, Vector.getElem?_eq_getElem hp,
    Option.getD_some]

theorem flip?_eq {s : Screen} {p : Nat × Nat} (h : Within p.1 p.2) :
    s.flip? p = some (s.flip p) := by
  have hp := place_lt h
  have hl : s.pixels[place p] = s.pixel p.1 p.2 :=
    Option.some.inj ((Vector.getElem?_eq_getElem hp).symm.trans (lit?_eq h))
  rw [flip?, dif_pos hp, flip, if_pos h, set_eq_setIfInBounds, hl]
  rfl

theorem draw?_eq (s : Screen) (x y : Nat) (rows : List UInt8) :
    s.draw? x y rows = some (s.draw x y rows) := by
  rw [draw?, foldlM_eq_some (g := flip) fun s p hp => flip?_eq (mem_cells.mp hp).1]
  rfl

theorem collides?_eq (s : Screen) (x y : Nat) (rows : List UInt8) :
    s.collides? x y rows = some (s.collides x y rows) := by
  rw [collides?, mapM_eq_some fun p hp => lit?_eq (mem_cells.mp hp).1]
  simp only [Option.pure_def, Option.bind_eq_bind, Option.bind_some, List.any_map]
  rfl

end Screen

/-! ## Keypad -/

namespace Keypad

/-- Whether a key is down, if there is such a key. -/
def pressed? (k : Keypad) (key : UInt8) : Option (Except NoSuchKey Bool) :=
  if key.toNat < 16 then do return .ok (← k.down[key.toNat]?) else return .error ⟨key⟩

/-- Press or release a key. -/
def set? (k : Keypad) (key : UInt8) (down : Bool) : Option (Except NoSuchKey Keypad) :=
  if h : key.toNat < 16 then return .ok ⟨k.down.set key.toNat down⟩ else return .error ⟨key⟩

/-- The lowest key that is down. -/
def scan? (k : Keypad) : Option (Option Nat) :=
  (List.range 16).findM? fun key => k.down[key]?

theorem getElem?_down (k : Keypad) {key : Nat} (h : key < 16) :
    k.down[key]? = some (k.isDown key) := by
  simp only [isDown, Vector.getElem?_eq_getElem h, Option.getD_some]

theorem pressed?_eq (k : Keypad) (key : UInt8) : k.pressed? key = some (k.pressed key) := by
  unfold pressed? pressed
  split
  · rename_i h
    rw [k.getElem?_down h]
    rfl
  · rfl

theorem set?_eq (k : Keypad) (key : UInt8) (down : Bool) :
    k.set? key down = some (k.set key down) := by
  by_cases h : key.toNat < 16
  · rw [set?, dif_pos h, set, if_pos h, set_eq_setIfInBounds]
    rfl
  · rw [set?, dif_neg h, set, if_neg h]
    rfl

theorem scan?_eq (k : Keypad) : k.scan? = some k.first? := by
  -- by induction on any list of keys; `List.range 16` would not do for the hypothesis
  have (l : List Nat) (h : ∀ key ∈ l, key < 16) :
      l.findM? (fun key => k.down[key]?) = some (l.find? k.isDown) := by
    induction l with
    | nil => rfl
    | cons key l ih =>
        have ih := ih fun j hj => h j (List.mem_cons_of_mem key hj)
        simp only [List.findM?, k.getElem?_down (h key List.mem_cons_self), List.find?, ih,
          Option.bind_eq_bind, Option.bind_some]
        cases k.isDown key <;> rfl
  exact this _ fun key hk => List.mem_range.mp hk

end Keypad

end ChipEight
