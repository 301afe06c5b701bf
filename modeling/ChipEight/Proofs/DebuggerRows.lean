import Mathlib.Data.List.Basic
import ChipEight.Proofs.Sessions

/-!
# The rows of the debugger

The debugger lists the words around the current instruction, one every two bytes. The
listing starts `rows / 2 * 2` bytes before the instruction. That distance is even, so
that some row comes to stand on the instruction, however high the listing is.

Near the start of memory the listing starts at address 0 instead, and the distance is
the address of the instruction itself. If that is odd, which a jump can bring about,
every row straddles the instruction and none is marked. The end of memory does no such
harm: it only cuts rows off, and never the row of a word that can be fetched.

Everything is read off one equation, `addresses_disassembly`: the addresses of the rows
are an arithmetic progression.
-/

namespace ChipEight

namespace Session

/-- Where a listing of so many rows starts, for an instruction at an address. -/
def listingStart (pc rows : Nat) : Nat :=
  pc - rows / 2 * 2

/-- How many of the rows lie in memory. -/
def listingLength (pc rows : Nat) : Nat :=
  min rows ((Memory.size - listingStart pc rows) / 2)

/-! ## A single row -/

/-- A row holds a word of memory, and is marked if the next cycle executes that word. -/
theorem codeRow?_eq_some {m : Machine} {a : Nat} {r : CodeRow} (h : codeRow? m a = some r) :
    r.address = a ∧ a ≤ 0xFFE ∧
      (∃ w, m.memory.readWord (.ofNat a) = .ok w ∧ r.text = w.text ++ "  " ++ w.assembly) ∧
      (r.current = true ↔ a = m.instructionAddress.toNat) := by
  unfold codeRow? at h
  split at h
  · rename_i ha
    obtain rfl := Option.some.inj h
    have ha' : a ≤ 0xFFE := by
      unfold Memory.size at ha
      omega
    have htoNat : (UInt16.ofNat a).toNat = a :=
      UInt16.toNat_ofNat_of_lt' (show a < 65536 by omega)
    have hreads : (UInt16.ofNat a).toNat + 2 ≤ Memory.size := by
      rw [htoNat]
      exact ha
    refine ⟨rfl, ha', ⟨_, ?_, rfl⟩, decide_eq_true_iff⟩
    rw [Memory.readWord, if_pos hreads, htoNat]
  · cases h

theorem map_address_codeRow? (m : Machine) (a : Nat) :
    (codeRow? m a).map (·.address) = Option.guard (· + 1 < Memory.size) a := by
  unfold codeRow? Option.guard
  split <;> simp_all

/-! ## The addresses of the rows -/

/-- Of addresses two apart, the end of memory cuts off all from some address on. -/
theorem filter_range'_two (start n : Nat) :
    (List.range' start n 2).filter (· + 1 < Memory.size) =
      List.range' start (min n ((Memory.size - start) / 2)) 2 := by
  induction n generalizing start with
  | zero => simp
  | succ n ih =>
      rw [List.range'_succ, List.filter_cons, ih (start + 2)]
      by_cases h : start + 1 < Memory.size
      · have hlen : min (n + 1) ((Memory.size - start) / 2) =
            min n ((Memory.size - (start + 2)) / 2) + 1 := by omega
        rw [if_pos (by simpa using h), hlen, List.range'_succ]
      · have hnow : (Memory.size - start) / 2 = 0 := by omega
        have hnext : (Memory.size - (start + 2)) / 2 = 0 := by omega
        rw [if_neg (by simpa using h), hnow, hnext, Nat.min_zero, Nat.min_zero]
        rfl

/-- The rows stand two bytes apart, from the start of the listing on. -/
theorem addresses_disassembly (s : Session) (rows : Nat) :
    let pc := s.console.machine.instructionAddress.toNat
    (s.disassembly rows).map (·.address) =
      List.range' (listingStart pc rows) (listingLength pc rows) 2 := by
  intro pc
  have hrange : (List.range rows).map (fun k => listingStart pc rows + k * 2) =
      List.range' (listingStart pc rows) rows 2 := by
    apply List.ext_getElem <;> simp [Nat.mul_comm]
  calc (s.disassembly rows).map (·.address)
    _ = (List.range rows).filterMap fun k =>
          Option.guard (· + 1 < Memory.size) (listingStart pc rows + k * 2) := by
        simp only [disassembly, List.map_filterMap, map_address_codeRow?]
        rfl
    _ = ((List.range rows).map (fun k => listingStart pc rows + k * 2)).filter
          (· + 1 < Memory.size) := by
        rw [← List.filterMap_eq_filter, List.filterMap_map]
        rfl
    _ = _ := by
        rw [hrange, filter_range'_two, listingLength]

theorem length_disassembly_le (s : Session) (rows : Nat) : (s.disassembly rows).length ≤ rows := by
  refine (List.length_filterMap_le _ _).trans ?_
  rw [List.length_range]

/-- Which rows a listing has. -/
theorem of_mem_disassembly {s : Session} {rows : Nat} {r : CodeRow}
    (h : r ∈ s.disassembly rows) :
    let m := s.console.machine
    r.address ≤ 0xFFE ∧
      (∃ w, m.memory.readWord (.ofNat r.address) = .ok w ∧
        r.text = w.text ++ "  " ++ w.assembly) ∧
      (r.current = true ↔ r.address = m.instructionAddress.toNat) := by
  obtain ⟨k, -, hk⟩ := List.mem_filterMap.mp h
  obtain ⟨haddress, hrow⟩ := codeRow?_eq_some hk
  rw [haddress]
  exact hrow

/-! ## The marked row -/

/-- When a row of the listing stands on the instruction: there are rows, the instruction can be
fetched, and the listing starts an even number of bytes before it. -/
theorem lands_iff (pc rows : Nat) :
    (∃ k < listingLength pc rows, pc = listingStart pc rows + 2 * k) ↔
      0 < rows ∧ pc ≤ 0xFFE ∧ (pc % 2 = 0 ∨ rows / 2 * 2 ≤ pc) := by
  unfold listingLength listingStart Memory.size
  constructor
  · rintro ⟨k, hk, hpc⟩
    omega
  · rintro ⟨hrows, hfetch, hlands⟩
    refine ⟨(pc - (pc - rows / 2 * 2)) / 2, ?_, ?_⟩ <;> omega

/-- The number of marked rows is the number of rows on the instruction. -/
theorem countP_current (s : Session) (rows : Nat) :
    (s.disassembly rows).countP (·.current) =
      ((s.disassembly rows).map (·.address)).count
        s.console.machine.instructionAddress.toNat := by
  rw [List.count, List.countP_map]
  refine List.countP_congr fun r hr => ?_
  obtain ⟨-, -, hcurrent⟩ := of_mem_disassembly hr
  simpa using hcurrent

/-- A listing has at most the rows that were asked for, two bytes apart and all in memory, each with
the text of its word. A row is marked if it stands on the current instruction. One does if there
are rows, the instruction can be fetched, and its address is even or leaves room for the rows
before it; otherwise no row is marked. -/
theorem disassembly_marks (s : Session) (rows : Nat) :
    let m := s.console.machine
    let pc := m.instructionAddress.toNat
    let listing := s.disassembly rows
    listing.length ≤ rows ∧
      listing.IsChain (fun r r' => r'.address = r.address + 2) ∧
      (∀ r ∈ listing, r.address ≤ 0xFFE ∧
        (∃ w, m.memory.readWord (.ofNat r.address) = .ok w ∧
          r.text = w.text ++ "  " ++ w.assembly) ∧
        (r.current = true ↔ r.address = pc)) ∧
      listing.countP (·.current) =
        if 0 < rows ∧ pc ≤ 0xFFE ∧ (pc % 2 = 0 ∨ rows / 2 * 2 ≤ pc) then 1 else 0 := by
  intro m pc listing
  have haddresses := s.addresses_disassembly rows
  refine ⟨?_, ?_, fun r hr => of_mem_disassembly hr, ?_⟩
  · have hlen := congrArg List.length haddresses
    rw [List.length_map, List.length_range'] at hlen
    exact hlen.trans_le (Nat.min_le_left _ _)
  · have hsteps := List.isChain_range' (listingStart pc rows) (listingLength pc rows) 2
    rw [← haddresses, List.isChain_map] at hsteps
    exact hsteps
  · rw [countP_current, haddresses, List.count_range']
    simp only [lands_iff]
    rfl

/-- While a key wait blocks, the row of the wait is marked and not the row after it. -/
theorem disassembly_marks_wait :
    ∃ s₀, Session.new ⟨480, 60, some 7⟩ [0xF3, 0x0A] (.ofSeed 0) = .ok s₀ ∧
      let s := s₀.after [.step]
      let m := s.console.machine
      m.registers.pc = 0x202 ∧ m.instructionAddress = 0x200 ∧
        (s.disassembly 4).countP (·.current) = 1 ∧
        ∀ r ∈ s.disassembly 4, r.current = true → r.address = 0x200 := by
  have hblocks : (Session.new ⟨480, 60, some 7⟩ [0xF3, 0x0A] (.ofSeed 0)).toOption.map
      (fun s => ((s.after [.step]).console.machine.registers.pc,
        (s.after [.step]).console.machine.instructionAddress)) = some (0x202, 0x200) := by
    decide +kernel
  obtain ⟨s₀, h₀, hs₀⟩ := exists_new_of_map hblocks
  obtain ⟨hpc, haddress⟩ := Prod.mk.inj hs₀
  obtain ⟨-, -, hrows, hmarks⟩ := disassembly_marks (s₀.after [.step]) 4
  rw [haddress] at hrows hmarks
  refine ⟨s₀, h₀, hpc, haddress, hmarks, fun r hr hcurrent => ?_⟩
  obtain ⟨-, -, hstands⟩ := hrows r hr
  exact hstands.mp hcurrent

/-- After a jump to address 1 the debugger does not show the next instruction: four rows stand at 0,
2, 4 and 6, and none is marked. -/
theorem disassembly_unmarked_odd :
    ∃ s₀, Session.new ⟨480, 60, some 7⟩ [0x10, 0x01] (.ofSeed 0) = .ok s₀ ∧
      (s₀.after [.step]).console.machine.instructionAddress = 1 ∧
      ((s₀.after [.step]).disassembly 4).map (fun r => (r.address, r.current)) =
        [(0, false), (2, false), (4, false), (6, false)] := by
  have hrun : (Session.new ⟨480, 60, some 7⟩ [0x10, 0x01] (.ofSeed 0)).toOption.map
      (fun s => ((s.after [.step]).console.machine.instructionAddress,
        ((s.after [.step]).disassembly 4).map (fun r => (r.address, r.current)))) =
      some (1, [(0, false), (2, false), (4, false), (6, false)]) := by decide +kernel
  obtain ⟨s₀, h₀, hs₀⟩ := exists_new_of_map hrun
  obtain ⟨haddress, hrows⟩ := Prod.mk.inj hs₀
  exact ⟨s₀, h₀, haddress, hrows⟩

end Session

end ChipEight
