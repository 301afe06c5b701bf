import ChipEight.Proofs.Cycle
import ChipEight.Proofs.Encoding

/-!
# Registers and digits in memory

`FX55` stores `V0` to `VX` in the bytes from `I` on, and `FX65` loads them from there.
Both move `I` past the block, so it takes another `ANNN` to load what was stored.
Nothing else of memory or of the registers is touched. So a program may do what it
likes between the two, as long as it leaves the block alone, and gets its registers
back.

`FX33` stores a byte as three decimal digits, and leaves `I` where it is.

A block may end with the last byte of memory. `I` is then `0x1000`, which is no address.
-/

namespace ChipEight

namespace Registers

/-- `I` past a block of bytes that lies in memory. -/
theorem toNat_index_past (r : Registers) {len : Nat} (h : r.i.toNat + len ≤ 4096) :
    (r.i + UInt16.ofNat len).toNat = r.i.toNat + len := by
  rw [UInt16.toNat_add, UInt16.toNat_ofNat']
  omega

theorem getElem?_upTo_of_le (r : Registers) {x z : UInt8} (hx : x.toNat < 16) (hz : z ≤ x) :
    (r.upTo x)[z.toNat]? = some (r.get z) := by
  have hle := UInt8.le_iff_toNat_le.mp hz
  have hslot : (slot z).val = z.toNat := slot_val (Nat.lt_of_le_of_lt hle hx)
  have hget := r.getElem?_upTo (x := x) (z := z) (by rwa [Fin.le_def, hslot, slot_val hx])
  rwa [hslot] at hget

end Registers

namespace Machine

variable {m m' : Machine} {x : UInt8}

/-- The word of an instruction executes the instruction, if its operands fit. -/
theorem Finds.cycle_encode {i : Instruction} (h : m.Finds i.encode) (hi : i.InRange)
    (he : m.advanced.execute m.registers.pc i.encode i = accept m') :
    m.cycle = (.ok i, m'.record i) :=
  h.cycle_eq ((Word.decode?_eq_some_iff i.encode i).mpr ⟨rfl, hi⟩) he

/-! ## Storing and loading registers -/

/-- `m.Stored x m'`: from `m` to `m'`, a cycle has stored `V0` to `VX`. -/
structure Stored (m : Machine) (x : UInt8) (m' : Machine) : Prop where
  /-- The registers, in order. -/
  block : ∀ z ≤ x, m'.memory.byte (m.registers.i.toNat + z.toNat) = m.registers.get z
  /-- The bytes before and after. -/
  others : ∀ b, b < m.registers.i.toNat ∨ m.registers.i.toNat + (x.toNat + 1) ≤ b →
    m'.memory.byte b = m.memory.byte b
  v : m'.registers.v = m.registers.v
  index : m'.registers.i.toNat = m.registers.i.toNat + (x.toNat + 1)

/-- `m.Loaded x m'`: from `m` to `m'`, a cycle has loaded `V0` to `VX`. -/
structure Loaded (m : Machine) (x : UInt8) (m' : Machine) : Prop where
  /-- The bytes, in order. -/
  block : ∀ z ≤ x, m'.registers.get z = m.memory.byte (m.registers.i.toNat + z.toNat)
  /-- The registers after `VX`. -/
  others : ∀ z : UInt8, x < z → z.toNat < 16 → m'.registers.get z = m.registers.get z
  memory : m'.memory = m.memory
  index : m'.registers.i.toNat = m.registers.i.toNat + (x.toNat + 1)

/-- A cycle at `FX55`. -/
theorem cycle_storeRegisters (hx : x.toNat < 16) (hw : m.Finds (.ofByte 0xF x 0x55))
    (hi : m.registers.i.toNat + (x.toNat + 1) ≤ 4096) :
    m.cycle = (.ok (.storeRegisters x), { m.advanced with
      memory := m.memory.store m.registers.i.toNat (m.registers.upTo x)
      registers := { m.advanced.registers with
        i := m.registers.i + UInt16.ofNat (x.toNat + 1) } }.record (.storeRegisters x)) := by
  rw [← length_upTo (r := m.registers) hx] at hi ⊢
  exact Finds.cycle_encode (i := .storeRegisters x) hw hx (writing_of_le (m := m.advanced) hi)

/-- A cycle at `FX65`. -/
theorem cycle_loadRegisters (hx : x.toNat < 16) (hw : m.Finds (.ofByte 0xF x 0x65))
    (hi : m.registers.i.toNat + (x.toNat + 1) ≤ 4096) :
    m.cycle = (.ok (.loadRegisters x), (m.advanced.withRegisters
      { m.advanced.registers.fill (m.memory.span m.registers.i.toNat (x.toNat + 1)) with
        i := m.registers.i + UInt16.ofNat (x.toNat + 1) }).record (.loadRegisters x)) := by
  rw [← length_upTo (r := m.registers) hx] at hi ⊢
  exact Finds.cycle_encode (i := .loadRegisters x) hw hx (reading_of_le (m := m.advanced) hi)

/-- **`FX55` stores `V0` to `VX` and nothing else.** -/
theorem exists_stored (hx : x.toNat < 16) (hw : m.Finds (.ofByte 0xF x 0x55))
    (hi : m.registers.i.toNat + (x.toNat + 1) ≤ 4096) :
    ∃ m', m.cycle = (.ok (.storeRegisters x), m') ∧ m.Stored x m' := by
  refine ⟨_, cycle_storeRegisters hx hw hi, ?_⟩
  have hlen := length_upTo (r := m.registers) hx
  constructor
  · intro z hz
    refine m.memory.byte_store_of_getElem? ?_ (m.registers.getElem?_upTo_of_le hx hz)
    rw [hlen]
    exact hi
  · intro b hb
    rw [← hlen] at hb
    exact m.memory.byte_store_of_outside hb
  · rfl
  · exact m.registers.toNat_index_past hi

/-- **`FX65` loads `V0` to `VX` and nothing else.** -/
theorem exists_loaded (hx : x.toNat < 16) (hw : m.Finds (.ofByte 0xF x 0x65))
    (hi : m.registers.i.toNat + (x.toNat + 1) ≤ 4096) :
    ∃ m', m.cycle = (.ok (.loadRegisters x), m') ∧ m.Loaded x m' := by
  refine ⟨_, cycle_loadRegisters hx hw hi, ?_⟩
  have hget (z : UInt8) := m.registers.advance.get_fill
    (m.memory.span m.registers.i.toNat (x.toNat + 1)) z
  constructor
  · intro z hz
    have hle := UInt8.le_iff_toNat_le.mp hz
    refine (hget z).trans ?_
    rw [Registers.slot_val (Nat.lt_of_le_of_lt hle hx),
      Memory.getElem?_span _ (Nat.lt_succ_of_le hle), Option.getD_some]
  · intro z hz hlt
    have hpast := UInt8.lt_iff_toNat_lt.mp hz
    refine (hget z).trans ?_
    rw [Registers.slot_val hlt, List.getElem?_eq_none, Option.getD_none]
    · rfl
    · rw [Memory.length_span]
      exact hpast
  · simp only [record, withRegisters, advanced]
  · exact m.registers.toNat_index_past hi

/-! ## Storing digits -/

/-- `m.DecimalStored x m'`: from `m` to `m'`, a cycle has stored the digits of `VX`. -/
structure DecimalStored (m : Machine) (x : UInt8) (m' : Machine) : Prop where
  /-- Hundreds, tens and ones. -/
  digits : ∃ d₀ d₁ d₂ : UInt8, m'.memory.span m.registers.i.toNat 3 = [d₀, d₁, d₂] ∧
    d₀.toNat ≤ 9 ∧ d₁.toNat ≤ 9 ∧ d₂.toNat ≤ 9 ∧
      100 * d₀.toNat + 10 * d₁.toNat + d₂.toNat = (m.registers.get x).toNat
  /-- The bytes before and after. -/
  others : ∀ b, b < m.registers.i.toNat ∨ m.registers.i.toNat + 3 ≤ b →
    m'.memory.byte b = m.memory.byte b
  v : m'.registers.v = m.registers.v
  index : m'.registers.i = m.registers.i

/-- Three digits are enough for a byte. -/
theorem decimalDigits_spec (b : UInt8) :
    (b / 100).toNat ≤ 9 ∧ (b / 10 % 10).toNat ≤ 9 ∧ (b % 10).toNat ≤ 9 ∧
      100 * (b / 100).toNat + 10 * (b / 10 % 10).toNat + (b % 10).toNat = b.toNat := by
  have hb := b.toNat_lt
  simp only [UInt8.toNat_div, UInt8.toNat_mod, UInt8.reduceToNat]
  omega

/-- **`FX33` stores the digits of `VX` and nothing else.** -/
theorem exists_decimalStored (hx : x.toNat < 16) (hw : m.Finds (.ofByte 0xF x 0x33))
    (hi : m.registers.i.toNat + 3 ≤ 4096) :
    ∃ m', m.cycle = (.ok (.storeDecimal x), m') ∧ m.DecimalStored x m' := by
  have hcycle := Finds.cycle_encode (i := .storeDecimal x) hw hx (writing_of_le (m := m.advanced) hi)
  refine ⟨_, hcycle, ?_⟩
  constructor
  · exact ⟨_, _, _, m.memory.span_store hi, decimalDigits_spec _⟩
  · intro b hb
    exact m.memory.byte_store_of_outside hb
  · rfl
  · rfl

/--
**Blocks of registers and digits are stored exactly, and registers come back.**

`FX55` with a block that fits in memory stores `V0` to `VX` in order, leaves all other
bytes and all registers, and moves `I` past the block. Take any machine that runs later
with the same bytes in the block, whatever else is different, and with `I` pointed at the
block again. Its `FX65` brings `V0` to `VX` back, leaves the other registers and memory,
and moves `I` to the same place. `FX33` with three bytes that lie in memory stores the
decimal digits of `VX` and leaves all else.
-/
theorem block_transfer_lossless {m : Machine} {x : UInt8} (hx : x.toNat < 16) :
    (m.Finds (.ofByte 0xF x 0x55) → m.registers.i.toNat + (x.toNat + 1) ≤ 4096 →
      ∃ m', m.cycle = (.ok (.storeRegisters x), m') ∧ m.Stored x m' ∧
        ∀ n : Machine, n.Finds (.ofByte 0xF x 0x65) → n.registers.i = m.registers.i →
          (∀ z ≤ x, n.memory.byte (m.registers.i.toNat + z.toNat) =
            m'.memory.byte (m.registers.i.toNat + z.toNat)) →
          ∃ n', n.cycle = (.ok (.loadRegisters x), n') ∧ n.Loaded x n' ∧
            (∀ z ≤ x, n'.registers.get z = m.registers.get z) ∧
            n'.registers.i = m'.registers.i) ∧
    (m.Finds (.ofByte 0xF x 0x33) → m.registers.i.toNat + 3 ≤ 4096 →
      ∃ m', m.cycle = (.ok (.storeDecimal x), m') ∧ m.DecimalStored x m') := by
  refine ⟨fun hw hi => ?_, exists_decimalStored hx⟩
  obtain ⟨m', hstore, hstored⟩ := exists_stored hx hw hi
  refine ⟨m', hstore, hstored, fun n hn hindex hblock => ?_⟩
  obtain ⟨n', hload, hloaded⟩ := exists_loaded hx hn (hindex ▸ hi)
  refine ⟨n', hload, hloaded, fun z hz => ?_, ?_⟩
  · calc
      n'.registers.get z = n.memory.byte (m.registers.i.toNat + z.toNat) := by
        rw [hloaded.block z hz, hindex]
      _ = m'.memory.byte (m.registers.i.toNat + z.toNat) := hblock z hz
      _ = m.registers.get z := hstored.block z hz
  · apply UInt16.toNat_inj.mp
    rw [hloaded.index, hstored.index, hindex]

/-- Three registers in the last bytes of memory, and back after they were wiped, and the digits of a
byte in the same place. -/
theorem block_transfer_lossless_end :
    let m (lo : UInt8) : Machine := { ofSeed 7 with
      memory := (Memory.store ⟨Vector.replicate 4096 0⟩ 0x202 [0xF2, 0x65]).store 0x200 [0xF2, lo]
      registers := { Registers.powerOn with v := Vector.replicate 16 0xFB, i := 0xFFD } }
    let stored := (m 0x55).cycle.2
    let wiped : Machine := { stored with
      registers := { stored.registers with v := Vector.replicate 16 0, i := 0xFFD } }
    ((m 0x55).Finds ⟨0xF255⟩ ∧ wiped.Finds ⟨0xF265⟩ ∧
      wiped.cycle.2.registers.get 2 = 0xFB ∧ wiped.cycle.2.registers.i = stored.registers.i) ∧
    (m 0x33).Finds ⟨0xF233⟩ ∧ (m 0x33).cycle.2.memory.byte 0xFFC = 0 := by
  intro m stored wiped
  have hfinds (lo : UInt8) : (m lo).Finds (.ofBytes 0xF2 lo) :=
    finds_of_store rfl (show Registers.powerOn.pc.toNat ≤ 0xFFE by decide) rfl
  have hrest : wiped.status = .running ∧
      (wiped.memory.readWord wiped.registers.pc).toOption = some ⟨0xF265⟩ ∧
      (m 0x33).memory.byte 0xFFC = 0 := by decide +kernel
  obtain ⟨hrunning, hread, hbefore⟩ := hrest
  have hwiped : wiped.Finds ⟨0xF265⟩ := ⟨hrunning, eq_ok_of_toOption hread⟩
  refine ⟨⟨hfinds 0x55, hwiped, ?_⟩, hfinds 0x33, ?_⟩
  · obtain ⟨hblock, -⟩ := block_transfer_lossless (m := m 0x55) (x := 2) (by decide)
    obtain ⟨m', hcycle, -, hback⟩ := hblock (hfinds 0x55) (Nat.le_refl 4096)
    have hm : m' = stored := (congrArg Prod.snd hcycle).symm
    subst hm
    obtain ⟨n', hload, -, hget, hindex⟩ := hback wiped hwiped rfl fun _ _ => rfl
    have hn : n' = wiped.cycle.2 := (congrArg Prod.snd hload).symm
    subst hn
    exact ⟨hget 2 (by decide), hindex⟩
  · obtain ⟨-, hdecimal⟩ := block_transfer_lossless (m := m 0x33) (x := 2) (by decide)
    obtain ⟨m', hcycle, hm'⟩ := hdecimal (hfinds 0x33) (Nat.le_refl 4096)
    rw [hcycle, hm'.others 0xFFC (.inl (by decide)), hbefore]

end Machine

end ChipEight
