import ChipEight.Console
import ChipEight.Proofs.CheckedMachine
import ChipEight.Proofs.Requests

/-!
# What an observer sees

A run shows each cycle that succeeds to an observer, who notes what he likes. Whatever
he notes, the run is the same, and all observers see the same: the steps of the run,
that is, the address and the instruction of every cycle that succeeded, in order. So
what an observer has noted in the end is a fold over the steps (`runWith_eq`,
`runHeadless_eq`), and two observers are compared without running anything again.

The steps are what the observer notes who notes everything, `collect`. That one list
serves all is `runWith_map`: a function that carries the notes of one observer to those
of another, cycle by cycle, carries them so over any run. And the machine counts its
steps, whether a run ends in a fault or not (`cycles_run_eq`). A trace is what one such
observer has noted (`trace_eq`).
-/

namespace ChipEight

/-- Note everything that is seen. -/
def collect (address : UInt16) (i : Instruction) (seen : List (UInt16 × Instruction)) :
    List (UInt16 × Instruction) :=
  seen ++ [(address, i)]

/-- The cycles that succeed when a machine runs for `n` cycles, or up to the first fault. -/
def Machine.steps (m : Machine) (n : Nat) : List (UInt16 × Instruction) :=
  (Machine.runWith collect n [] m).1

namespace Console

/-- The cycles that succeed in at most `n` frames without a keyboard. -/
def steps (c : Console) (n : Nat) : List (UInt16 × Instruction) :=
  (c.runHeadless collect n []).1

/-- How a run without a keyboard ends. -/
def headless (c : Console) (n : Nat) : Ending × Console :=
  (c.runHeadless collect n []).2

end Console

/-! ## Observers compared -/

section

variable {σ τ : Type} {observe : UInt16 → Instruction → σ → σ}
  {observe' : UInt16 → Instruction → τ → τ} {f : σ → τ}
  (hf : ∀ a i s, f (observe a i s) = observe' a i (f s))

include hf

/-- **What carries the notes of one cycle carries those of a run**, and the run is the same. -/
theorem Machine.runWith_map (n : Nat) (s : σ) (m : Machine) :
    runWith observe' n (f s) m = (f (runWith observe n s m).1, (runWith observe n s m).2) := by
  induction n generalizing s m with
  | zero => rfl
  | succ n ih =>
      rw [runWith, runWith]
      rcases m.cycle with ⟨e | i, m'⟩
      · rfl
      · dsimp only
        rw [← hf, ih]

namespace Console

theorem runFrameWith_map (s : σ) (c : Console) :
    runFrameWith observe' (f s) c = (f (runFrameWith observe s c).1, (runFrameWith observe s c).2) := by
  rw [runFrameWith, runFrameWith, Machine.runWith_map hf]
  rcases Machine.runWith observe c.budget.toNat s c.machine with ⟨s', _ | e, m⟩ <;> rfl

theorem runHeadless_map (n : Nat) (s : σ) (c : Console) :
    runHeadless observe' n (f s) c =
      (f (runHeadless observe n s c).1, (runHeadless observe n s c).2) := by
  induction n generalizing s c with
  | zero => rfl
  | succ n ih =>
      rw [runHeadless, runHeadless, runFrameWith_map hf]
      rcases runFrameWith observe s c with ⟨s', e | r, c'⟩
      · rfl
      · dsimp only
        split
        · rfl
        · exact ih s' c'

end Console

end

/-- What an observer has noted after some steps. -/
def noted {σ : Type} (observe : UInt16 → Instruction → σ → σ) (s : σ)
    (steps : List (UInt16 × Instruction)) : σ :=
  steps.foldl (fun s p => observe p.1 p.2 s) s

theorem noted_concat {σ : Type} (observe : UInt16 → Instruction → σ → σ) (s : σ) (a : UInt16)
    (i : Instruction) (seen : List (UInt16 × Instruction)) :
    noted observe s (collect a i seen) = observe a i (noted observe s seen) :=
  List.foldl_concat _ s (a, i) seen

theorem noted_collect (seen steps : List (UInt16 × Instruction)) :
    noted collect seen steps = seen ++ steps := by
  induction steps generalizing seen with
  | nil => exact (List.append_nil seen).symm
  | cons p steps ih => exact (ih (seen ++ [p])).trans (List.append_cons seen p steps).symm

namespace Machine

/-- **Every observer of a run sees its steps**, and changes nothing. -/
theorem runWith_eq {σ : Type} (observe : UInt16 → Instruction → σ → σ) (n : Nat) (s : σ)
    (m : Machine) : runWith observe n s m = (noted observe s (m.steps n), m.run n) := by
  have hmap := runWith_map (noted_concat observe s) n [] m
  rwa [runWith_snd] at hmap

theorem steps_succ (m : Machine) (n : Nat) :
    m.steps (n + 1) =
      match m.cycle with
      | (.ok i, m') => (m.instructionAddress, i) :: m'.steps n
      | (.error _, _) => [] := by
  rw [steps, runWith]
  rcases m.cycle with ⟨e | i, m'⟩
  · rfl
  · dsimp only
    rw [runWith_eq, noted_collect]
    rfl

/-- **A run counts its steps**, also if it ends in a fault. -/
theorem cycles_run_eq (m : Machine) (n : Nat) :
    (m.run n).2.cycles = m.cycles + (m.steps n).length := by
  induction n generalizing m with
  | zero => rfl
  | succ n ih =>
      rw [run_succ, steps_succ]
      rcases hm : m.cycle with ⟨e | i, m'⟩
      · exact cycles_cycled (cycled_of_eq hm)
      · have hcycles : m'.cycles = m.cycles + 1 := cycles_cycled (cycled_of_eq hm)
        dsimp only
        rw [ih, hcycles, List.length_cons, Nat.add_assoc, Nat.add_comm 1]

theorem length_steps_of_run {m m' : Machine} {n : Nat} (h : m.run n = (none, m')) :
    (m.steps n).length = n := by
  induction n generalizing m with
  | zero => rfl
  | succ n ih =>
      rw [run_succ] at h
      rw [steps_succ]
      rcases hm : m.cycle with ⟨e | i, m₁⟩ <;> rw [hm] at h
      · cases h
      · exact congrArg (· + 1) (ih h)

/-- A run without a fault counts all the cycles that were asked for. -/
theorem cycles_of_run {m m' : Machine} {n : Nat} (h : m.run n = (none, m')) :
    m'.cycles = m.cycles + n := by
  have hcount := m.cycles_run_eq n
  rwa [h, length_steps_of_run h] at hcount

/-- What is counted does not depend on what was counted before. -/
theorem runCycles_eq (m : Machine) (n : Nat) :
    m.runCycles n =
      match m.run n with
      | (none, m') => (.ok n, m')
      | (some e, m') => (.error e, m') := by
  rw [runCycles]
  rcases hm : m.run n with ⟨_ | e, m'⟩
  · dsimp only
    rw [cycles_of_run hm, Nat.add_sub_cancel_left]
  · rfl

end Machine

namespace Console

theorem runFrameWith_eq {σ : Type} (observe : UInt16 → Instruction → σ → σ) (s : σ) (c : Console) :
    runFrameWith observe s c = (noted observe s (c.machine.steps c.budget.toNat), c.runFrame) := by
  rw [runFrame, runFrameWith, runFrameWith, Machine.runWith_eq, Machine.runWith_eq]
  rcases c.machine.run c.budget.toNat with ⟨_ | e, m⟩ <;> rfl

/-- **Every observer of a run without a keyboard sees its steps**, and changes nothing. -/
theorem runHeadless_eq {σ : Type} (observe : UInt16 → Instruction → σ → σ) (n : Nat) (s : σ)
    (c : Console) : c.runHeadless observe n s = (noted observe s (c.steps n), c.headless n) :=
  runHeadless_map (noted_concat observe s) n [] c

theorem headless_succ (c : Console) (n : Nat) :
    c.headless (n + 1) =
      match c.runFrame with
      | (.error e, c') => (.faulted e, c')
      | (.ok r, c') => if r.awaitingKey then (.blocked, c') else c'.headless n := by
  rw [headless, runHeadless, runFrameWith_eq]
  rcases c.runFrame with ⟨e | r, c'⟩
  · rfl
  · dsimp only
    split
    · rfl
    · rw [runHeadless_eq]

theorem steps_succ (c : Console) (n : Nat) :
    c.steps (n + 1) = c.machine.steps c.budget.toNat ++
      match c.runFrame with
      | (.error _, _) => []
      | (.ok r, c') => if r.awaitingKey then [] else c'.steps n := by
  rw [steps, runHeadless, runFrameWith_eq, noted_collect]
  rcases c.runFrame with ⟨e | r, c'⟩
  · exact (List.append_nil _).symm
  · dsimp only
    split
    · exact (List.append_nil _).symm
    · rw [runHeadless_eq, noted_collect]
      rfl

theorem cycles_framed {c c' : Console} {r : Except Fault FrameReport} (h : c.Framed r c') :
    c'.machine.cycles = c.machine.cycles + (c.machine.steps c.budget.toNat).length := by
  have hrun := c.machine.cycles_run_eq c.budget.toNat
  cases h with
  | completed hm | abandoned hm =>
      rw [hm] at hrun
      exact hrun

/-- **A run without a keyboard counts its steps**, however it ends. -/
theorem cycles_headless (c : Console) (n : Nat) :
    (c.headless n).2.machine.cycles = c.machine.cycles + (c.steps n).length := by
  induction n generalizing c with
  | zero => rfl
  | succ n ih =>
      have hframe := cycles_framed c.runFrame_framed
      rw [headless_succ, steps_succ]
      rcases hc : c.runFrame with ⟨e | r, c'⟩ <;> rw [hc] at hframe
      · rw [List.append_nil]
        exact hframe
      · dsimp only
        split
        · rw [List.append_nil]
          exact hframe
        · rw [ih, List.length_append, ← Nat.add_assoc]
          exact congrArg (· + (c'.steps n).length) hframe

end Console

/-! ## The trace -/

namespace Machine

/-- The lines that a trace has for some steps. -/
def traceLines (steps : List (UInt16 × Instruction)) : List String :=
  steps.map fun p => traceLine p.1 p.2

/-- A tracer adds its lines in front of those it has. -/
theorem noted_traceLine (steps : List (UInt16 × Instruction)) (lines : List String) :
    noted (fun a i lines => traceLine a i :: lines) lines steps =
      (traceLines steps).reverse ++ lines := by
  induction steps generalizing lines with
  | nil => rfl
  | cons p steps ih =>
      have hcons : traceLines (p :: steps) = traceLine p.1 p.2 :: traceLines steps := rfl
      rw [hcons, List.reverse_cons, List.append_assoc]
      exact ih (traceLine p.1 p.2 :: lines)

end Machine

end ChipEight
