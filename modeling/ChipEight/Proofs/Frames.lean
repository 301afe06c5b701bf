import Mathlib
import ChipEight.Proofs.Repaint
import ChipEight.Proofs.Steps

/-!
# A frame is its budget of cycles

A frame has a number of cycles to spend. If all of them succeed, it has shown each to its
observer, in order, and then it ticks and is counted. If one faults, the frame ends there:
the observer has seen the cycles before it, the machine is as the fault left it, and
nothing of the end of a frame happens. A run of frames is cut short in the same way by
its first frame that faults.

Both are loops that take steps until one fails, so the two ways such a loop can end are
stated once, for any step (`run_of_succeeds`, `run_of_fails`). Where a loop stands is
said without the loop, by `afterSteps`.
-/

namespace ChipEight

/-! ## Steps until one fails -/

section

variable {σ ε α : Type} (step : σ → Except ε α × σ)

/-- The state after `n` steps, whether or not they succeed. -/
def afterSteps : Nat → σ → σ
  | 0, s => s
  | n + 1, s => afterSteps n (step s).2

/-- The first `n` steps succeed. -/
def Succeeds (n : Nat) (s : σ) : Prop :=
  ∀ j < n, ∃ a, (step (afterSteps step j s)).1 = .ok a

/-- After `j` steps that succeed, the next one fails. -/
structure Fails (j : Nat) (s : σ) (e : ε) : Prop where
  before : Succeeds step j s
  failed : (step (afterSteps step j s)).1 = .error e

variable {step}

theorem afterSteps_succ (n : Nat) (s : σ) :
    afterSteps step (n + 1) s = (step (afterSteps step n s)).2 := by
  induction n generalizing s with
  | zero => rfl
  | succ n ih => exact ih (step s).2

/-- What no step breaks, no number of steps breaks. -/
theorem afterSteps_keeps {P : σ → Prop} (hstep : ∀ s, P s → P (step s).2) (n : Nat) {s : σ}
    (h : P s) : P (afterSteps step n s) := by
  induction n generalizing s with
  | zero => exact h
  | succ n ih => exact ih (hstep s h)

instance decidableIsOk (r : Except ε α) : Decidable (∃ a, r = .ok a) :=
  match r with
  | .ok a => isTrue ⟨a, rfl⟩
  | .error _ => isFalse (by rintro ⟨_, h⟩; cases h)

instance decidableSucceeds (n : Nat) (s : σ) : Decidable (Succeeds step n s) :=
  inferInstanceAs (Decidable (∀ j < n, ∃ a, (step (afterSteps step j s)).1 = .ok a))

theorem succeeds_zero (s : σ) : Succeeds step 0 s := by
  intro j hj
  cases hj

theorem succeeds_succ {n : Nat} {s : σ} :
    Succeeds step (n + 1) s ↔ (∃ a, (step s).1 = .ok a) ∧ Succeeds step n (step s).2 := by
  constructor
  · intro h
    exact ⟨h 0 (Nat.succ_pos n), fun j hj => h (j + 1) (Nat.succ_lt_succ hj)⟩
  · rintro ⟨hfirst, hrest⟩ j hj
    cases j with
    | zero => exact hfirst
    | succ j => exact hrest j (Nat.lt_of_succ_lt_succ hj)

theorem fails_zero {s : σ} {e : ε} (h : (step s).1 = .error e) : Fails step 0 s e :=
  ⟨succeeds_zero s, h⟩

theorem fails_succ {j : Nat} {s : σ} {e : ε} :
    Fails step (j + 1) s e ↔ (∃ a, (step s).1 = .ok a) ∧ Fails step j (step s).2 e := by
  constructor
  · rintro ⟨hbefore, hfailed⟩
    obtain ⟨hfirst, hrest⟩ := succeeds_succ.mp hbefore
    exact ⟨hfirst, hrest, hfailed⟩
  · rintro ⟨hfirst, hrest, hfailed⟩
    exact ⟨succeeds_succ.mpr ⟨hfirst, hrest⟩, hfailed⟩

/-- Steps in a row all succeed, or one of them is the first that fails. -/
theorem succeeds_or_fails (n : Nat) (s : σ) :
    Succeeds step n s ∨ ∃ j < n, ∃ e, Fails step j s e := by
  induction n generalizing s with
  | zero => exact .inl (succeeds_zero s)
  | succ n ih =>
      cases hs : (step s).1 with
      | error e => exact .inr ⟨0, Nat.succ_pos n, e, fails_zero hs⟩
      | ok a =>
          rcases ih (step s).2 with hrest | ⟨j, hj, e, hfails⟩
          · exact .inl (succeeds_succ.mpr ⟨⟨a, hs⟩, hrest⟩)
          · exact .inr ⟨j + 1, Nat.succ_lt_succ hj, e, fails_succ.mpr ⟨⟨a, hs⟩, hfails⟩⟩

section

variable {run : Nat → σ → Option ε × σ} (hzero : ∀ s, run 0 s = (none, s))
  (hok : ∀ n s a, (step s).1 = .ok a → run (n + 1) s = run n (step s).2)
  (herror : ∀ n s e, (step s).1 = .error e → run (n + 1) s = (some e, (step s).2))

include hok

include hzero in
/-- **A loop whose steps all succeed takes all of them.** -/
theorem run_of_succeeds {n : Nat} {s : σ} (h : Succeeds step n s) :
    run n s = (none, afterSteps step n s) := by
  induction n generalizing s with
  | zero => exact hzero s
  | succ n ih =>
      obtain ⟨⟨a, ha⟩, hrest⟩ := succeeds_succ.mp h
      rw [hok n s a ha]
      exact ih hrest

include herror in
/-- **A loop ends with the first step that fails.** -/
theorem run_of_fails {j n : Nat} {s : σ} {e : ε} (h : Fails step j s e) (hj : j < n) :
    run n s = (some e, afterSteps step (j + 1) s) := by
  induction j generalizing n s with
  | zero =>
      obtain ⟨n, rfl⟩ := Nat.exists_eq_succ_of_ne_zero (Nat.ne_of_gt hj)
      exact herror n s e h.failed
  | succ j ih =>
      obtain ⟨n, rfl⟩ := Nat.exists_eq_succ_of_ne_zero (Nat.ne_of_gt (Nat.zero_lt_of_lt hj))
      obtain ⟨⟨a, ha⟩, hrest⟩ := fails_succ.mp h
      rw [hok n s a ha]
      exact ih hrest (Nat.lt_of_succ_lt_succ hj)

end

end

/-! ## Cycles -/

namespace Machine

variable {m : Machine}

theorem run_succ_of_ok (n : Nat) (m : Machine) (i : Instruction) (h : m.cycle.1 = .ok i) :
    m.run (n + 1) = m.cycle.2.run n := by
  rw [run_succ, show m.cycle = (.ok i, m.cycle.2) from Prod.ext h rfl]

theorem run_succ_of_error (n : Nat) (m : Machine) (e : Fault) (h : m.cycle.1 = .error e) :
    m.run (n + 1) = (some e, m.cycle.2) := by
  rw [run_succ, show m.cycle = (.error e, m.cycle.2) from Prod.ext h rfl]

/-- `m.Calls n calls`: the calls are those of the first `n` cycles, each with the address of its
instruction and the instruction that it answered. -/
def Calls (m : Machine) (n : Nat) (calls : List (UInt16 × Instruction)) : Prop :=
  calls.length = n ∧ ∀ j < n, ∃ i, (afterSteps cycle j m).cycle.1 = .ok i ∧
    calls[j]? = some ((afterSteps cycle j m).instructionAddress, i)

/-- The steps of a run are the calls of its cycles. -/
theorem calls_steps {n : Nat} (h : Succeeds cycle n m) : m.Calls n (m.steps n) := by
  induction n generalizing m with
  | zero => exact ⟨rfl, fun j hj => by cases hj⟩
  | succ n ih =>
      obtain ⟨⟨i, hi⟩, hrest⟩ := succeeds_succ.mp h
      obtain ⟨hlength, hcalls⟩ := ih hrest
      rw [steps_succ, show m.cycle = (.ok i, m.cycle.2) from Prod.ext hi rfl]
      refine ⟨congrArg (· + 1) hlength, fun j hj => ?_⟩
      cases j with
      | zero => exact ⟨i, hi, rfl⟩
      | succ j => exact hcalls j (Nat.lt_of_succ_lt_succ hj)

/-- A run that is cut short has the steps before the fault. -/
theorem steps_of_fails {j n : Nat} {e : Fault} (h : Fails cycle j m e) (hj : j < n) :
    m.steps n = m.steps j := by
  induction j generalizing m n with
  | zero =>
      obtain ⟨n, rfl⟩ := Nat.exists_eq_succ_of_ne_zero (Nat.ne_of_gt hj)
      rw [steps_succ, show m.cycle = (.error e, m.cycle.2) from Prod.ext h.failed rfl]
      rfl
  | succ j ih =>
      obtain ⟨n, rfl⟩ := Nat.exists_eq_succ_of_ne_zero (Nat.ne_of_gt (Nat.zero_lt_of_lt hj))
      obtain ⟨⟨i, hi⟩, hrest⟩ := fails_succ.mp h
      rw [steps_succ, steps_succ, show m.cycle = (.ok i, m.cycle.2) from Prod.ext hi rfl]
      exact congrArg _ (ih hrest (Nat.lt_of_succ_lt_succ hj))

/-- A fault leaves the timers alone. -/
theorem timers_of_faulted {m' : Machine} {e : Fault} (h : Cycled m (.error e) m') :
    m'.registers.delay = m.registers.delay ∧ m'.registers.sound = m.registers.sound := by
  cases h with
  | refused _ _ hd he =>
      obtain ⟨_, rfl⟩ := (execute_eq_error_iff (Word.inRange_of_decode? hd)).mp he
      exact ⟨rfl, rfl⟩
  | _ => exact ⟨rfl, rfl⟩

/-- No cycle takes the repaint mark. -/
theorem dirty_cycle (m : Machine) (h : m.screen.dirty = true) : m.cycle.2.screen.dirty = true := by
  rcases hm : m.cycle with ⟨e | i, m'⟩
  · exact screen_of_faulted hm ▸ h
  · rcases screen_of_executed hm with ⟨-, hd⟩ | ⟨-, hs⟩
    · exact hd
    · exact hs ▸ h

end Machine

namespace Console

/-! ## Frames -/

theorem runFrame_of_run_none {c : Console} {m : Machine}
    (h : c.machine.run c.budget.toNat = (none, m)) : c.runFrame = (.ok (c.report m), c.complete m) := by
  rw [runFrame, runFrameWith, Machine.runWith_eq, h]

theorem runFrame_of_run_some {c : Console} {e : Fault} {m : Machine}
    (h : c.machine.run c.budget.toNat = (some e, m)) : c.runFrame = (.error e, c.abandon m) := by
  rw [runFrame, runFrameWith, Machine.runWith_eq, h]

theorem advance_succ_of_ok (n : Nat) (c : Console) (r : FrameReport) (h : c.runFrame.1 = .ok r) :
    advance (n + 1) c = advance n c.runFrame.2 := by
  rw [advance_succ, show c.runFrame = (.ok r, c.runFrame.2) from Prod.ext h rfl]

theorem advance_succ_of_error (n : Nat) (c : Console) (e : Fault) (h : c.runFrame.1 = .error e) :
    advance (n + 1) c = (some e, c.runFrame.2) := by
  rw [advance_succ, show c.runFrame = (.error e, c.runFrame.2) from Prod.ext h rfl]

/-- A frame that completes has executed its budget. -/
theorem cycles_of_completed {c c' : Console} {r : FrameReport} (h : c.Framed (.ok r) c') :
    c'.machine.cycles = c.machine.cycles + c.budget.toNat := by
  cases h with
  | completed hm =>
      have hcycles := Machine.cycles_of_run hm
      exact hcycles

/-- The cycles of `n` frames that complete are their budgets. -/
theorem cycles_afterSteps {n : Nat} {c : Console} (h : Succeeds runFrame n c) :
    (afterSteps runFrame n c).machine.cycles = c.machine.cycles +
      ((List.range n).map fun j => (afterSteps runFrame j c).budget.toNat).sum := by
  induction n with
  | zero => rfl
  | succ n ih =>
      have hbefore : Succeeds runFrame n c := fun j hj => h j (Nat.lt_succ_of_lt hj)
      obtain ⟨r, hr⟩ := h n (Nat.lt_succ_self n)
      have hframe := (afterSteps runFrame n c).runFrame_framed
      rw [hr] at hframe
      rw [afterSteps_succ, cycles_of_completed hframe, ih hbefore, List.range_succ, List.map_append,
        List.sum_append, Nat.add_assoc]
      rfl

section

variable {σ : Type} (observe : UInt16 → Instruction → σ → σ) (s : σ) (c : Console)

/-- What an observer has noted, what a frame answers and what it leaves, if all cycles of the budget
succeed. -/
structure Spent (r : σ × Except Fault FrameReport × Console) : Prop where
  /-- The observer is called for each cycle of the budget. -/
  calls : ∃ calls, c.machine.Calls c.budget.toNat calls ∧ r.1 = noted observe s calls
  /-- The budget is reported. -/
  answer : ∃ report, r.2.1 = .ok report ∧ report.cycles = c.budget
  /-- After the cycles there is one tick, and the repaint mark is taken. -/
  machine : r.2.2.machine = (afterSteps Machine.cycle c.budget.toNat c.machine).tick.settle
  /-- The cycles are counted. -/
  cycles : r.2.2.machine.cycles = c.machine.cycles + c.budget.toNat
  /-- The frame is counted. -/
  frames : r.2.2.frames = c.frames + 1

/-- The same if `j` cycles succeed and the next one faults. -/
structure CutShort (j : Nat) (e : Fault) (r : σ × Except Fault FrameReport × Console) : Prop where
  /-- The observer is called for each cycle before the fault. -/
  calls : ∃ calls, c.machine.Calls j calls ∧ r.1 = noted observe s calls
  /-- The fault is answered. -/
  answer : r.2.1 = .error e
  /-- Nothing happens to the machine after the fault. -/
  machine : r.2.2.machine = afterSteps Machine.cycle (j + 1) c.machine
  /-- The cycles before the fault are counted. -/
  cycles : r.2.2.machine.cycles = c.machine.cycles + j
  /-- The delay timer stands where the cycles before the fault have left it. -/
  delay : r.2.2.machine.registers.delay =
    (afterSteps Machine.cycle j c.machine).registers.delay
  /-- So does the sound timer. -/
  sound : r.2.2.machine.registers.sound =
    (afterSteps Machine.cycle j c.machine).registers.sound
  /-- So does the repaint mark. -/
  mark : r.2.2.machine.screen.dirty = (afterSteps Machine.cycle j c.machine).screen.dirty
  /-- A repaint mark from before the frame stays. -/
  pending : c.machine.screen.dirty = true → r.2.2.machine.screen.dirty = true
  /-- The frame is not counted. -/
  frames : r.2.2.frames = c.frames

variable {c}

theorem spent_of_succeeds (h : Succeeds Machine.cycle c.budget.toNat c.machine) :
    Spent observe s c (runFrameWith observe s c) := by
  have hrun : c.machine.run c.budget.toNat =
      (none, afterSteps Machine.cycle c.budget.toNat c.machine) :=
    run_of_succeeds (fun _ => rfl) Machine.run_succ_of_ok h
  have hcycles := Machine.cycles_of_run hrun
  rw [runFrameWith_eq, runFrame_of_run_none hrun]
  exact {
    calls := ⟨_, Machine.calls_steps h, rfl⟩
    answer := ⟨_, rfl, rfl⟩
    machine := rfl
    cycles := hcycles
    frames := rfl }

theorem cutShort_of_fails {j : Nat} {e : Fault} (h : Fails Machine.cycle j c.machine e)
    (hj : j < c.budget.toNat) : CutShort observe s c j e (runFrameWith observe s c) := by
  have hbefore : c.machine.run j = (none, afterSteps Machine.cycle j c.machine) :=
    run_of_succeeds (fun _ => rfl) Machine.run_succ_of_ok h.before
  have hrun : c.machine.run c.budget.toNat =
      (some e, afterSteps Machine.cycle (j + 1) c.machine) :=
    run_of_fails Machine.run_succ_of_ok Machine.run_succ_of_error h hj
  have hlast : (afterSteps Machine.cycle j c.machine).cycle =
      (.error e, afterSteps Machine.cycle (j + 1) c.machine) := by
    rw [afterSteps_succ]
    exact Prod.ext h.failed rfl
  have hcycled := Machine.cycled_of_eq hlast
  obtain ⟨hdelay, hsound⟩ := Machine.timers_of_faulted hcycled
  rw [runFrameWith_eq, runFrame_of_run_some hrun, Machine.steps_of_fails h hj]
  exact {
    calls := ⟨_, Machine.calls_steps h.before, rfl⟩
    answer := rfl
    machine := rfl
    cycles := (Machine.cycles_cycled hcycled).trans (Machine.cycles_of_run hbefore)
    delay := hdelay
    sound := hsound
    mark := congrArg Screen.dirty (Machine.screen_of_faulted hlast)
    pending := afterSteps_keeps Machine.dirty_cycle (j + 1)
    frames := rfl }

end

theorem runFrames_of_succeeds {n : Nat} {c : Console} (h : Succeeds runFrame n c) :
    c.runFrames n = (.ok ((List.range n).map fun j => (afterSteps runFrame j c).budget.toNat).sum,
      afterSteps runFrame n c) := by
  have hrun : advance n c = (none, afterSteps runFrame n c) :=
    run_of_succeeds (fun _ => rfl) advance_succ_of_ok h
  rw [runFrames, hrun]
  dsimp only
  rw [cycles_afterSteps h, Nat.add_sub_cancel_left]

theorem runFrames_of_fails {j n : Nat} {c : Console} {e : Fault} (h : Fails runFrame j c e)
    (hj : j < n) : c.runFrames n = (.error e, afterSteps runFrame (j + 1) c) := by
  rw [runFrames, run_of_fails advance_succ_of_ok advance_succ_of_error h hj]

/--
**A frame is its budget of cycles, or what comes before the first fault.**

If the cycles of the budget succeed, the observer is called for each of them, with the
address of the instruction and the instruction that the cycle answers. Then there is one
tick, the repaint mark is taken, and the frame is counted. If one of them faults, the
observer is called for those before it, and the machine is as the fault left it: without
a tick, with the repaint mark as it was, and without the frame being counted.

A run of frames answers the sum of their budgets exactly if no frame faults, and the
first fault otherwise. Either way it leaves what its frames leave, one after another.
-/
theorem frame_spends_budget {σ : Type} (observe : UInt16 → Instruction → σ → σ) (s : σ)
    (c : Console) (n : Nat) :
    (Succeeds Machine.cycle c.budget.toNat c.machine →
      Spent observe s c (runFrameWith observe s c)) ∧
    (∀ j < c.budget.toNat, ∀ e, Fails Machine.cycle j c.machine e →
      CutShort observe s c j e (runFrameWith observe s c)) ∧
    let frame := fun j => afterSteps runFrame j c
    let total := ((List.range n).map fun j => (frame j).budget.toNat).sum
    ((c.runFrames n).1 = .ok total ↔ Succeeds runFrame n c) ∧
    (Succeeds runFrame n c → (c.runFrames n).2 = frame n) ∧
    (∀ j < n, ∀ e, Fails runFrame j c e → c.runFrames n = (.error e, frame (j + 1))) := by
  refine ⟨spent_of_succeeds observe s, fun j hj e h => cutShort_of_fails observe s h hj, ?_⟩
  intro frame total
  refine ⟨⟨fun hok => ?_, fun h => ?_⟩, fun h => ?_, fun j hj e h => runFrames_of_fails h hj⟩
  · have hends : Succeeds runFrame n c ∨ ∃ j < n, ∃ e, Fails runFrame j c e :=
      succeeds_or_fails n c
    rcases hends with h | ⟨j, hj, e, h⟩
    · exact h
    · rw [runFrames_of_fails h hj] at hok
      cases hok
  · rw [runFrames_of_succeeds h]
  · rw [runFrames_of_succeeds h]

/-- A program that draws and then returns without a call: the fault comes with the third cycle, two
cycles were seen, and the repaint mark of the drawing stays. A jump to itself fills three frames. -/
theorem frame_spends_budget_return :
    let c (image : List UInt8) : Console :=
      ⟨{ Machine.ofSeed 7 with memory := Memory.powerOn.store 0x200 image }, ⟨500, 60, some 7⟩, 0, 0⟩
    let drawing := c [0xD0, 0x11, 0x60, 0x05, 0x00, 0xEE]
    let jumping := c [0x12, 0x00]
    let r := runFrameWith (fun a _ seen => seen ++ [a]) [] drawing
    (Fails Machine.cycle 2 drawing.machine (.stackUnderflow 0x204 ⟨0x00EE⟩) ∧
      r.1.length = 2 ∧ r.2.1 = .error (.stackUnderflow 0x204 ⟨0x00EE⟩) ∧
      r.2.2.machine.cycles = 2 ∧ r.2.2.machine.screen.dirty = true ∧ r.2.2.frames = 0) ∧
    Succeeds runFrame 3 jumping ∧ (jumping.runFrames 3).1 = .ok (8 + 8 + 9) := by
  intro c drawing jumping r
  -- one evaluation for what has to be known of both consoles
  have hruns : Succeeds Machine.cycle 2 drawing.machine ∧
      (afterSteps Machine.cycle 2 drawing.machine).cycle.1 =
        .error (.stackUnderflow 0x204 ⟨0x00EE⟩) ∧
      (afterSteps Machine.cycle 2 drawing.machine).screen.dirty = true ∧
      drawing.budget.toNat = 8 ∧ Succeeds runFrame 3 jumping ∧
      ((List.range 3).map fun j => (afterSteps runFrame j jumping).budget.toNat).sum = 8 + 8 + 9 := by
    decide +kernel
  obtain ⟨hbefore, hfailed, hmark, hbudget, hjumps, hsum⟩ := hruns
  obtain ⟨-, hcut, -⟩ :=
    frame_spends_budget (fun a _ (seen : List UInt16) => seen ++ [a]) [] drawing 0
  obtain ⟨-, -, hiff, -⟩ :=
    frame_spends_budget (fun a _ (seen : List UInt16) => seen ++ [a]) [] jumping 3
  have hr := hcut 2 (hbudget ▸ by decide) _ ⟨hbefore, hfailed⟩
  refine ⟨⟨⟨hbefore, hfailed⟩, ?_, hr.answer, hr.cycles, hr.mark.trans hmark, hr.frames⟩, hjumps, ?_⟩
  · obtain ⟨calls, ⟨hlength, -⟩, hseen⟩ := hr.calls
    match calls, hlength with
    | [_, _], _ => exact congrArg List.length hseen
  · rw [hiff.mpr hjumps, hsum]

end Console

end ChipEight
