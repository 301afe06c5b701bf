import Mathlib.Data.Prod.Basic
import ChipEight.Proofs.Drawing
import ChipEight.Proofs.Steps

/-!
# Bookkeeping is never read

A machine keeps more than its execution reads: how many cycles it has counted, the
instruction it executed last, whether a repaint is due, the seed that a reset goes back
to, and return addresses that are dead. Two machines that differ in nothing else are
`Alike`. They give the same answers to whatever is done to them, and stay alike.

Most instructions touch none of this, so the two sides of the argument are the same term
(`withBooks` writes the books and leaves the rest). What needs an argument is the call
stack. A return reads the slot below the depth, and that slot is live, so it is the same
in both stacks. A call makes a dead slot live, and overwrites it first. Hence the stacks
are compared by their live addresses alone.
-/

namespace ChipEight

/-! ## Stacks with the same live addresses -/

namespace CallStack

variable {s s' : CallStack}

theorem depth_eq (h : s'.live = s.live) : s'.depth = s.depth := by
  have hlength := congrArg List.length h
  rwa [length_live, length_live] at hlength

/-- Stacks with the same live addresses take a new one, or have no room for it, alike. -/
theorem push_cases (h : s'.live = s.live) (addr : UInt16) :
    (∃ t t', s.push addr = .ok t ∧ s'.push addr = .ok t' ∧ t'.live = t.live) ∨
      s.push addr = .error .overflow ∧ s'.push addr = .error .overflow := by
  have hdepth := depth_eq h
  by_cases hroom : s.depth < 16
  · left
    have hpush : s.push addr = .ok _ := dif_pos hroom
    have hpush' : s'.push addr = .ok _ := dif_pos (hdepth ▸ hroom)
    refine ⟨_, _, hpush, hpush', ?_⟩
    rw [live_push hpush, live_push hpush', h]
  · right
    exact ⟨dif_neg hroom, dif_neg (hdepth ▸ hroom)⟩

/-- Stacks with the same live addresses give the same one back, or have none, alike. -/
theorem pop_cases (h : s'.live = s.live) :
    (∃ addr t t', s.pop = .ok (addr, t) ∧ s'.pop = .ok (addr, t') ∧ t'.live = t.live) ∨
      s.pop = .error .underflow ∧ s'.pop = .error .underflow := by
  have hdepth := depth_eq h
  by_cases hpos : 0 < s.depth
  · left
    have hpop : s.pop = .ok _ := dif_pos hpos
    have hpop' : s'.pop = .ok _ := dif_pos (hdepth ▸ hpos)
    -- the slot that is read is the last of the live ones
    rw [live_pop hpop, live_pop hpop'] at h
    obtain ⟨hrest, haddr⟩ := List.append_inj' h rfl
    rw [List.singleton_inj.mp haddr] at hpop'
    exact ⟨_, _, _, hpop, hpop', hrest⟩
  · right
    exact ⟨dif_neg hpos, dif_neg (hdepth ▸ hpos)⟩

end CallStack

namespace Machine

/-! ## Machines that differ in their books -/

/-- `m'` is `m` in all that execution reads. -/
structure Alike (m m' : Machine) : Prop where
  v : m'.registers.v = m.registers.v
  i : m'.registers.i = m.registers.i
  pc : m'.registers.pc = m.registers.pc
  live : m'.registers.stack.live = m.registers.stack.live
  delay : m'.registers.delay = m.registers.delay
  sound : m'.registers.sound = m.registers.sound
  memory : m'.memory = m.memory
  pixels : m'.screen.pixels = m.screen.pixels
  keypad : m'.keypad = m.keypad
  random : m'.random = m.random
  status : m'.status = m.status

/-- What may differ. Of the stack this is what lies in dead slots. -/
structure Books where
  stack : CallStack
  dirty : Bool
  seed : Option UInt64
  cycles : Nat
  lastInstruction : Option Instruction

/-- The machine with other books. -/
def withBooks (m : Machine) (b : Books) : Machine :=
  { m with
    registers := { m.registers with stack := b.stack }
    screen := { m.screen with dirty := b.dirty }
    seed := b.seed
    cycles := b.cycles
    lastInstruction := b.lastInstruction }

theorem registers_withBooks (m : Machine) (b : Books) :
    (m.withBooks b).registers = { m.registers with stack := b.stack } := rfl

theorem keypad_withBooks (m : Machine) (b : Books) : (m.withBooks b).keypad = m.keypad := rfl

theorem memory_withBooks (m : Machine) (b : Books) : (m.withBooks b).memory = m.memory := rfl

theorem alike_withBooks (m : Machine) {b : Books} (h : b.stack.live = m.registers.stack.live) :
    Alike m (m.withBooks b) :=
  ⟨rfl, rfl, rfl, h, rfl, rfl, rfl, rfl, rfl, rfl, rfl⟩

theorem Alike.exists_books {m m' : Machine} (h : Alike m m') :
    ∃ b : Books, b.stack.live = m.registers.stack.live ∧ m' = m.withBooks b := by
  obtain ⟨⟨_, _, _, _, _, _⟩, _, ⟨_, _⟩, _, _, _, _, _, _⟩ := m
  obtain ⟨⟨_, _, _, stack, _, _⟩, _, ⟨_, dirty⟩, _, _, seed, _, cycles, last⟩ := m'
  obtain ⟨rfl, rfl, rfl, hlive, rfl, rfl, rfl, rfl, rfl, rfl, rfl⟩ := h
  exact ⟨⟨stack, dirty, seed, cycles, last⟩, hlive, rfl⟩

/-- The same answer, and machines that are alike. -/
def Agree {α : Type} (r r' : α × Machine) : Prop :=
  r'.1 = r.1 ∧ Alike r.2 r'.2

/-! ## One cycle -/

section

variable {m m' : Machine} {a : UInt16} {w : Word}

theorem Alike.reading (h : Alike m m') {len : Nat} {act act' : List UInt8 → Machine}
    (hact : ∀ data, Alike (act data) (act' data)) :
    Agree (m.reading a w len act) (m'.reading a w len act') := by
  unfold Machine.reading
  rw [h.memory, h.i]
  cases m.memory.slice m.registers.i len with
  | ok data => exact ⟨rfl, hact data⟩
  | error e => exact ⟨rfl, h⟩

theorem Alike.writing (h : Alike m m') {data : List UInt8} {r r' : Registers}
    (hr : ∀ memory, Alike { m with memory, registers := r } { m' with memory, registers := r' }) :
    Agree (m.writing a w data r) (m'.writing a w data r') := by
  unfold Machine.writing
  rw [h.memory, h.i]
  cases m.memory.write m.registers.i data with
  | ok memory => exact ⟨rfl, hr memory⟩
  | error e => exact ⟨rfl, h⟩

theorem Alike.asking (h : Alike m m') {key : UInt8} {act act' : Bool → Registers}
    (hact : ∀ down, Alike (m.withRegisters (act down)) (m'.withRegisters (act' down))) :
    Agree (m.asking a w key act) (m'.asking a w key act') := by
  unfold Machine.asking
  rw [h.keypad]
  cases m.keypad.pressed key with
  | ok down => exact ⟨rfl, hact down⟩
  | error e => exact ⟨rfl, h⟩

theorem Alike.skipIf (h : Alike m m') (c : Bool) :
    Alike (m.withRegisters (m.registers.skipIf c)) (m'.withRegisters (m'.registers.skipIf c)) := by
  obtain ⟨b, hlive, rfl⟩ := h.exists_books
  cases c <;> exact alike_withBooks _ hlive

/-- **No instruction reads the books.** -/
theorem Alike.execute (h : Alike m m') (a : UInt16) (w : Word) (i : Instruction) :
    Agree (m.execute a w i) (m'.execute a w i) := by
  obtain ⟨b, hlive, rfl⟩ := h.exists_books
  cases i with
  | clear => exact ⟨rfl, alike_withBooks (b := { b with dirty := true }) _ hlive⟩
  | draw x y n =>
      refine h.reading fun rows => ⟨rfl, rfl, rfl, hlive, rfl, rfl, rfl, ?_, rfl, rfl, rfl⟩
      exact Screen.pixels_draw_congr h.pixels _ _ rows
  | ret =>
      simp only [Machine.execute, Registers.pop, registers_withBooks]
      rcases CallStack.pop_cases hlive with ⟨addr, t, t', ht, ht', hrest⟩ | ⟨he, he'⟩
      · rw [ht, ht']
        exact ⟨rfl, alike_withBooks (b := { b with stack := t' }) _ hrest⟩
      · rw [he, he']
        exact ⟨rfl, h⟩
  | call addr =>
      simp only [Machine.execute, Registers.push, registers_withBooks]
      rcases CallStack.push_cases hlive m.registers.pc with ⟨t, t', ht, ht', hmore⟩ | ⟨he, he'⟩
      · rw [ht, ht']
        exact ⟨rfl, alike_withBooks (b := { b with stack := t' }) _ hmore⟩
      · rw [he, he']
        exact ⟨rfl, h⟩
  | loadRegisters x => exact h.reading fun data => alike_withBooks _ hlive
  | storeDecimal x | storeRegisters x => exact h.writing fun memory => alike_withBooks _ hlive
  | skipPressed x | skipReleased x => exact h.asking fun down => h.skipIf _
  | skipEqByte _ _ | skipNeByte _ _ | skipEqReg _ _ | skipNeReg _ _ => exact ⟨rfl, h.skipIf _⟩
  | waitKey x =>
      simp only [Machine.execute, keypad_withBooks]
      cases m.keypad.first? with
      | some key => exact ⟨rfl, alike_withBooks _ hlive⟩
      | none => exact ⟨rfl, alike_withBooks _ hlive⟩
  | _ => exact ⟨rfl, alike_withBooks _ hlive⟩

theorem Alike.advanced (h : Alike m m') : Alike m.advanced m'.advanced := by
  obtain ⟨b, hlive, rfl⟩ := h.exists_books
  exact alike_withBooks _ hlive

theorem Alike.halt (h : Alike m m') : Alike m.halt m'.halt := by
  obtain ⟨b, hlive, rfl⟩ := h.exists_books
  exact alike_withBooks _ hlive

theorem Alike.record (h : Alike m m') (i : Instruction) : Alike (m.record i) (m'.record i) :=
  ⟨h.v, h.i, h.pc, h.live, h.delay, h.sound, h.memory, h.pixels, h.keypad, h.random, h.status⟩

/-- **No cycle reads the books.** -/
theorem Alike.cycled {m₁ : Machine} {r : Except Fault Instruction} (h : Alike m m')
    (hc : Cycled m r m₁) : ∃ m₁', Cycled m' r m₁' ∧ Alike m₁ m₁' := by
  have hexecute := h.advanced.execute m.registers.pc m.word
  obtain ⟨b, hlive, rfl⟩ := h.exists_books
  cases hc with
  | unfetched hs hpc => exact ⟨_, .unfetched hs hpc, h.halt⟩
  | undecoded hs hpc hd => exact ⟨_, .undecoded hs hpc hd, h.advanced.halt⟩
  | @refused i e m₂ hs hpc hd he =>
      obtain ⟨hanswer, halike⟩ := hexecute i
      rw [he] at hanswer halike
      exact ⟨_, .refused hs hpc hd (Prod.fst_eq_iff.mp hanswer), halike.halt⟩
  | @executed i m₂ hs hpc hd he =>
      obtain ⟨hanswer, halike⟩ := hexecute i
      rw [he] at hanswer halike
      exact ⟨_, .executed hs hpc hd (Prod.fst_eq_iff.mp hanswer), halike.record i⟩
  | released hs hk =>
      exact ⟨_, .released hs hk, ⟨rfl, rfl, rfl, hlive, rfl, rfl, rfl, rfl, rfl, rfl, rfl⟩⟩
  | blocked hs hk => exact ⟨_, .blocked hs hk, h.record _⟩
  | stopped hs => exact ⟨_, .stopped hs, h⟩

theorem Alike.cycle (h : Alike m m') : Agree m.cycle m'.cycle := by
  obtain ⟨m₁', hc, halike⟩ := h.cycled m.cycle_cycled
  rw [hc.cycle_eq]
  exact ⟨rfl, halike⟩

/-! ## Operations -/

theorem Alike.run (h : Alike m m') (n : Nat) : Agree (m.run n) (m'.run n) := by
  induction n generalizing m m' with
  | zero => exact ⟨rfl, h⟩
  | succ n ih =>
      rcases hm : m.cycle with ⟨r, m₁⟩
      obtain ⟨m₁', hc, halike⟩ := h.cycled (cycled_of_eq hm)
      rw [run_succ, run_succ, hm, hc.cycle_eq]
      cases r with
      | error e => exact ⟨rfl, halike⟩
      | ok i => exact ih halike

theorem Alike.runCycles (h : Alike m m') (n : Nat) : Agree (m.runCycles n) (m'.runCycles n) := by
  obtain ⟨hanswer, halike⟩ := h.run n
  rw [runCycles_eq, runCycles_eq]
  rcases hm : m.run n with ⟨e, m₁⟩
  rcases hm' : m'.run n with ⟨e', m₁'⟩
  rw [hm, hm'] at hanswer halike
  obtain rfl : e' = e := hanswer
  cases e' with
  | none => exact ⟨rfl, halike⟩
  | some e => exact ⟨rfl, halike⟩

end

/-- **No operation that runs a machine reads the books**, and none sets them apart further. -/
theorem Alike.perform {m m' : Machine} (h : Alike m m') {op : Operation}
    (hrepaint : op ≠ .event .repaint) (hreset : op ≠ .reset) :
    Agree (m.perform op) (m'.perform op) := by
  cases op with
  | event e =>
      cases e with
      | cycle =>
          obtain ⟨hanswer, halike⟩ := h.cycle
          exact ⟨congrArg Answer.cycled hanswer, halike⟩
      | tick =>
          obtain ⟨b, hlive, rfl⟩ := h.exists_books
          exact ⟨rfl, alike_withBooks _ hlive⟩
      | key key down =>
          obtain ⟨b, hlive, rfl⟩ := h.exists_books
          simp only [Machine.perform, handle, setKey, keypad_withBooks]
          cases m.keypad.set key down with
          | ok keypad => exact ⟨rfl, alike_withBooks _ hlive⟩
          | error e => exact ⟨rfl, h⟩
      | repaint => exact absurd rfl hrepaint
  | run n =>
      obtain ⟨hanswer, halike⟩ := h.runCycles n
      exact ⟨congrArg Answer.ran hanswer, halike⟩
  | load program =>
      obtain ⟨b, hlive, rfl⟩ := h.exists_books
      simp only [Machine.perform, load, memory_withBooks]
      exact ⟨rfl, alike_withBooks _ hlive⟩
  | reset => exact absurd rfl hreset

/--
**Bookkeeping never influences execution.**

Two machines agree in the registers, the live return addresses, the timers, memory, the
pixels, the keypad, the random stream and the status. They may differ in the cycles
counted, the last instruction, whether a repaint is due, the seed for resets, and in what
dead stack slots hold. Whatever cycles, ticks, keys and programs come, both give the same
answers, counts and faults included, and agree again in all of this.
-/
theorem bookkeeping_unread {m m' : Machine} (h : Alike m m') {ops : List Operation}
    (hops : ∀ op ∈ ops, op ≠ .event .repaint ∧ op ≠ .reset) :
    (answersTo perform m' ops).1 = (answersTo perform m ops).1 ∧
      Alike (answersTo perform m ops).2 (answersTo perform m' ops).2 := by
  induction ops generalizing m m' with
  | nil => exact ⟨rfl, h⟩
  | cons op ops ih =>
      obtain ⟨hrepaint, hreset⟩ := hops op List.mem_cons_self
      obtain ⟨hanswer, halike⟩ := h.perform hrepaint hreset
      obtain ⟨hanswers, hlast⟩ := ih halike fun op' hop' => hops op' (List.mem_cons_of_mem op hop')
      exact ⟨congrArg₂ List.cons hanswer hanswers, hlast⟩

/-- A machine whose dead slots hold addresses and whose counter stands at 99 runs a call and its
return like a new one, and faults at the same place. -/
theorem bookkeeping_unread_used :
    let image : List UInt8 := [0x22, 0x04, 0x00, 0xEE, 0x00, 0xEE]
    let m : Machine := { ofSeed 7 with memory := Memory.powerOn.store 0x200 image }
    let m' : Machine := m.withBooks {
      stack := { CallStack.empty with slots := Vector.replicate 16 0x300 }
      dirty := true, seed := none, cycles := 99, lastInstruction := some .clear }
    let ops : List Operation := [.run 2, .event .tick, .event .cycle]
    Alike m m' ∧ (∀ op ∈ ops, op ≠ .event .repaint ∧ op ≠ .reset) ∧
      (answersTo perform m' ops).1[0]? = some (.ran (.ok 2)) ∧
      (answersTo perform m' ops).2.status = .faulted ∧
      (answersTo perform m' ops).2.registers.pc = 0x204 := by
  intro image m m' ops
  have halike : Alike m m' := alike_withBooks m rfl
  have hops : ∀ op ∈ ops, op ≠ .event .repaint ∧ op ≠ .reset := by decide
  -- one evaluation of the run of the new machine
  have hrun : (m.runCycles 2).1.toOption = some 2 ∧
      (answersTo perform m ops).2.status = .faulted ∧
      (answersTo perform m ops).2.registers.pc = 0x204 := by decide +kernel
  obtain ⟨hcount, hstatus, hpc⟩ := hrun
  obtain ⟨hanswers, hlast⟩ := bookkeeping_unread halike hops
  refine ⟨halike, hops, ?_, hlast.status.trans hstatus, hlast.pc.trans hpc⟩
  rw [hanswers, getElem?_answersTo]
  exact congrArg (some ∘ Answer.ran) (eq_ok_of_toOption hcount)

end Machine

end ChipEight
