import ChipEight.Image
import ChipEight.Proofs.Runs

/-!
# Access to memory

Memory is looked at a byte, a word or a range at a time, and changed by writing a range
or loading an image. Access is granted exactly if the range lies in memory, and an empty
range may stand at its end. What is then read is the bytes of the range, and what was
written is what is read from then on, whichever way it is looked at; all other bytes are
as before (`Memory.Patched`).

An image is judged twice, once as an image and once when it is loaded. The two judgements
agree on every image but the empty one, which could be loaded but is not admitted.
-/

namespace ChipEight

namespace Memory

variable {m m' : Memory}

/-! ## When access is granted -/

theorem read_of_lt {a : UInt16} (h : a.toNat < size) : m.read a = .ok (m.byte a.toNat) :=
  if_pos h

theorem readWord_of_le {a : UInt16} (h : a.toNat + 2 ≤ size) :
    m.readWord a = .ok (.ofBytes (m.byte a.toNat) (m.byte (a.toNat + 1))) :=
  if_pos h

theorem read_congr {a : UInt16} (h : m.byte a.toNat = m'.byte a.toNat) : m.read a = m'.read a := by
  rw [read, read, h]

theorem slice_eq_ok_iff {a : UInt16} {len : Nat} {data : List UInt8} :
    m.slice a len = .ok data ↔ a.toNat + len ≤ size ∧ m.span a.toNat len = data := by
  unfold slice
  split
  · rename_i h
    simp only [Except.ok.injEq, h, true_and]
  · rename_i h
    simp only [reduceCtorEq, h, false_and]

theorem write_eq_ok_iff {a : UInt16} {data : List UInt8} :
    m.write a data = .ok m' ↔ a.toNat + data.length ≤ size ∧ m.store a.toNat data = m' := by
  unfold write
  split
  · rename_i h
    simp only [Except.ok.injEq, h, true_and]
  · rename_i h
    simp only [reduceCtorEq, h, false_and]

theorem load_eq_ok_iff {image : List UInt8} :
    m.load image = (.ok (), m') ↔ image.length ≤ programSpace ∧ m.store 0x200 image = m' := by
  rcases Nat.lt_or_ge programSpace image.length with hlt | hle
  · simp only [m.load_of_lt hlt, Prod.mk.injEq, reduceCtorEq, Nat.not_le.mpr hlt, false_and]
  · simp only [m.load_of_le hle, Prod.mk.injEq, hle, true_and]
    rfl

theorem load_eq_error_iff {image : List UInt8} {e : MemoryError} :
    m.load image = (.error e, m') ↔ programSpace < image.length ∧
      .programTooLarge image.length programSpace = e ∧ m = m' := by
  rcases Nat.lt_or_ge programSpace image.length with hlt | hle
  · simp only [m.load_of_lt hlt, Prod.mk.injEq, Except.error.injEq, hlt, true_and]
  · simp only [m.load_of_le hle, Prod.mk.injEq, reduceCtorEq, Nat.not_lt.mpr hle, false_and]

/-! ## What was written -/

/-- `m.Patched a data m'`: in `m'` stands `data` from `a` on, and all else is as in `m`. -/
structure Patched (m : Memory) (a : Nat) (data : List UInt8) (m' : Memory) : Prop where
  /-- A byte that was written. -/
  byte : ∀ (p : UInt16) (k : Nat) (b : UInt8), p.toNat = a + k → data[k]? = some b →
    m'.read p = .ok b
  /-- A word that was written. -/
  word : ∀ (p : UInt16) (k : Nat) (hi lo : UInt8), p.toNat = a + k → data[k]? = some hi →
    data[k + 1]? = some lo → m'.readWord p = .ok (.ofBytes hi lo)
  /-- A range that was written. -/
  range : ∀ (p : UInt16) (k len : Nat), p.toNat = a + k → k + len ≤ data.length →
    m'.slice p len = .ok ((data.drop k).take len)
  /-- The bytes before and after. -/
  others : ∀ p : UInt16, p.toNat < a ∨ a + data.length ≤ p.toNat → m'.read p = m.read p

theorem patched_store (m : Memory) {a : Nat} {data : List UInt8} (h : a + data.length ≤ size) :
    m.Patched a data (m.store a data) where
  byte p k b hp hb := by
    obtain ⟨hk, -⟩ := List.getElem?_eq_some_iff.mp hb
    rw [read_of_lt (by omega), hp, byte_store_of_getElem? m h hb]
  word p k hi lo hp hhi hlo := by
    obtain ⟨hk, -⟩ := List.getElem?_eq_some_iff.mp hlo
    rw [readWord_of_le (by omega), hp, byte_store_of_getElem? m h hhi, Nat.add_assoc,
      byte_store_of_getElem? m h hlo]
  range p k len hp hk := by
    rw [slice_eq_ok_iff, hp]
    exact ⟨by omega, m.span_store_part h hk⟩
  others p hp := read_congr (m.byte_store_of_outside hp)

end Memory

/-! ## The two judgements of an image -/

theorem Image.validate_eq_ok_iff (image : List UInt8) :
    validate image = .ok () ↔ image ≠ [] ∧ image.length ≤ Memory.programSpace := by
  cases image with
  | nil => simp [validate]
  | cons b rest => simp [validate]

/-- A load that is refused leaves the machine alone. -/
theorem Machine.perform_load_of_error {m : Machine} {image : List UInt8} {e : MemoryError}
    (h : m.memory.load image = (.error e, m.memory)) :
    m.perform (.load image) = (.loaded (.error e), m) := by
  simp only [perform, load, h]

/--
**Admission, loading and access agree on what fits, and access is exact.**

An image is admitted exactly if it is not empty and can be loaded. Once loaded it stands at
`0x200`, and all else in memory is as before, the font and the bytes behind the image
included. An image that is refused changes nothing. A range can be read exactly if it lies
in memory, and what is read is its bytes. A range can be written exactly if it lies in
memory; then it holds what was written, and all else is as before.
-/
theorem access_exact (m : Memory) :
    (∀ image, Image.validate image = .ok () ↔ image ≠ [] ∧ ∃ m', m.load image = (.ok (), m')) ∧
    (∀ image m', m.load image = (.ok (), m') → m.Patched 0x200 image m') ∧
    (∀ (image : List UInt8) (e : MemoryError) (m' : Memory), m.load image = (.error e, m') →
      m' = m ∧ ∀ machine : Machine, machine.memory = m →
        machine.perform (.load image) = (.loaded (.error e), machine)) ∧
    (∀ (a : UInt16) (len : Nat), (∃ data, m.slice a len = .ok data) ↔ a.toNat + len ≤ 4096) ∧
    (∀ (a : UInt16) (len : Nat) (data : List UInt8), m.slice a len = .ok data →
      data.length = len ∧ ∀ (p : UInt16) (k : Nat), p.toNat = a.toNat + k → k < len →
        ∃ b, data[k]? = some b ∧ m.read p = .ok b) ∧
    (∀ (a : UInt16) (data : List UInt8),
      (∃ m', m.write a data = .ok m') ↔ a.toNat + data.length ≤ 4096) ∧
    ∀ (a : UInt16) (data : List UInt8) (m' : Memory), m.write a data = .ok m' →
      m.Patched a.toNat data m' := by
  refine ⟨fun image => ?_, fun image m' h => ?_, fun image e m' h => ?_,
    fun a len => ?_, fun a len data h => ?_, fun a data => ?_, fun a data m' h => ?_⟩
  · simp only [Image.validate_eq_ok_iff, Memory.load_eq_ok_iff, exists_and_left, exists_eq',
      and_true]
  · obtain ⟨hfits, rfl⟩ := Memory.load_eq_ok_iff.mp h
    have hend : 0x200 + image.length ≤ Memory.size := by
      have : Memory.programSpace = Memory.size - 0x200 := rfl
      have : Memory.size = 4096 := rfl
      omega
    exact m.patched_store hend
  · obtain ⟨-, -, rfl⟩ := Memory.load_eq_error_iff.mp h
    refine ⟨rfl, ?_⟩
    rintro machine rfl
    exact Machine.perform_load_of_error h
  · simp only [Memory.slice_eq_ok_iff, exists_and_left, exists_eq', and_true]
    rfl
  · obtain ⟨hlies, rfl⟩ := Memory.slice_eq_ok_iff.mp h
    refine ⟨m.length_span a.toNat len, fun p k hp hk => ?_⟩
    refine ⟨m.byte p.toNat, ?_, Memory.read_of_lt (by omega)⟩
    rw [Memory.getElem?_span m hk, hp]
  · simp only [Memory.write_eq_ok_iff, exists_and_left, exists_eq', and_true]
    rfl
  · obtain ⟨hlies, rfl⟩ := Memory.write_eq_ok_iff.mp h
    exact m.patched_store hlies

/-- The last word of memory written and read back, with the font as it was; an empty range behind it
that can be read; and an image one byte too long, refused. -/
theorem access_exact_end :
    (∃ m', Memory.powerOn.write 0xFFE [0x12, 0x34] = .ok m' ∧
      m'.readWord 0xFFE = .ok ⟨0x1234⟩ ∧ m'.read 0x050 = .ok 0xF0) ∧
    (∃ data, Memory.powerOn.slice 0x1000 0 = .ok data ∧ data.length = 0) ∧
    (∃ m', Memory.powerOn.load [0xA2, 0xF0] = (.ok (), m') ∧ m'.read 0x201 = .ok 0xF0) ∧
    ∃ image : List UInt8, image.length = 3585 ∧ (Machine.ofSeed 7).perform (.load image) =
      (.loaded (.error (.programTooLarge 3585 3584)), .ofSeed 7) := by
  obtain ⟨hadmits, hload, hrefused, hslice, hread, hwrite, hwritten⟩ := access_exact .powerOn
  have hfont : Memory.powerOn.byte 0x050 = 0xF0 := by decide +kernel
  refine ⟨?_, ?_, ?_, ?_⟩
  · obtain ⟨m', hm'⟩ := (hwrite 0xFFE [0x12, 0x34]).mpr (by decide)
    have hpatched := hwritten _ _ _ hm'
    exact ⟨m', hm', hpatched.word 0xFFE 0 0x12 0x34 rfl rfl rfl,
      (hpatched.others 0x050 (.inl (by decide))).trans
        ((Memory.read_of_lt (by decide)).trans (congrArg Except.ok hfont))⟩
  · obtain ⟨data, hdata⟩ := (hslice 0x1000 0).mpr (by decide)
    exact ⟨data, hdata, (hread _ _ _ hdata).1⟩
  · obtain ⟨-, m', hm'⟩ := (hadmits [0xA2, 0xF0]).mp rfl
    exact ⟨m', hm', (hload _ _ hm').byte 0x201 1 0xF0 rfl rfl⟩
  · obtain ⟨image, hlength⟩ : ∃ image : List UInt8, image.length = 3585 :=
      ⟨List.replicate 3585 0, List.length_replicate⟩
    have hlong := Memory.powerOn.load_of_lt (hlength ▸ (by decide : 3584 < 3585))
    rw [hlength] at hlong
    obtain ⟨-, hmachine⟩ := hrefused _ _ _ hlong
    exact ⟨image, hlength, hmachine (.ofSeed 7) rfl⟩

end ChipEight
