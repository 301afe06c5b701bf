import ChipEight.Proofs.Footprint
import ChipEight.Proofs.Frames
import ChipEight.Proofs.Halting

/-!
# Timers count ticks and nothing else

A timer is what was last put into it, less the ticks since, and never below zero. It does
not matter what else happened: cycles that succeed, block or fault, keys, loads, and what
was put into the other timer.

What happened is written down as a list of moments since the last reset, the instructions
that were executed with the machine that each left, and the ticks between them. Read from
the left, the moments tell a timer (`due`), and every operation keeps the machine in step
with them (`Timed`). The last write and the ticks after it are then read off the list,
without another look at the machine (`counts_due`).

A console ticks at the end of each frame that completes. So in its moments a tick is a
frame completed, however many cycles the frame had, and a frame that faults has none.
-/

namespace ChipEight

/-! ## The two timers -/

/-- The timers. -/
inductive Timer where
  | delay
  | sound
deriving DecidableEq

/-- The value of a timer. -/
def Registers.timer (r : Registers) : Timer → UInt8
  | .delay => r.delay
  | .sound => r.sound

/-- The register whose value an instruction puts into a timer, if it is made for that timer. -/
def Instruction.sets? : Instruction → Timer → Option UInt8
  | setDelay x, .delay => some x
  | setSound x, .sound => some x
  | _, _ => none

/-! ## Moments -/

/-- What happens in a run, as far as timers go. -/
inductive Moment where
  /-- A cycle executed an instruction and left a machine. -/
  | executed (i : Instruction) (m : Machine)
  /-- The timers ticked. On a console, a frame was completed. -/
  | ticked
deriving DecidableEq

/-- The value that a moment puts into a timer, if it does. -/
def Moment.written? (t : Timer) : Moment → Option UInt8
  | executed i m => (i.sets? t).map m.registers.get
  | ticked => none

/-- A timer after one more moment. -/
def Moment.pass (t : Timer) (a : Nat) : Moment → Nat
  | executed i m => ((executed i m).written? t).elim a UInt8.toNat
  | ticked => a - 1

/-- What moments make of a timer that started at zero. -/
def due (t : Timer) (moments : List Moment) : Nat :=
  moments.foldl (Moment.pass t) 0

/-- Nothing is put into a timer in these moments. -/
def Unset (t : Timer) (moments : List Moment) : Prop :=
  ∀ b ∈ moments, b.written? t = none

instance (t : Timer) (moments : List Moment) : Decidable (Unset t moments) :=
  inferInstanceAs (Decidable (∀ b ∈ moments, b.written? t = none))

/-- `Counts t moments a`: the value `a` is what was last put into the timer, less the ticks after
that, and zero if nothing was put there. -/
structure Counts (t : Timer) (moments : List Moment) (a : Nat) : Prop where
  written : ∀ before b v after, moments = before ++ b :: after → b.written? t = some v →
    Unset t after → a = v.toNat - after.count .ticked
  unwritten : Unset t moments → a = 0

theorem due_concat (t : Timer) (moments : List Moment) (b : Moment) :
    due t (moments ++ [b]) = b.pass t (due t moments) :=
  List.foldl_concat (Moment.pass t) 0 b moments

theorem pass_of_written {t : Timer} {b : Moment} {v : UInt8} (h : b.written? t = some v)
    (a : Nat) : b.pass t a = v.toNat := by
  cases b with
  | executed i m => rw [Moment.pass, h, Option.elim_some]
  | ticked => cases h

/-- Without a write, a timer falls with each tick. -/
theorem foldl_pass_of_unset {t : Timer} {moments : List Moment} (h : Unset t moments) (a : Nat) :
    moments.foldl (Moment.pass t) a = a - moments.count .ticked := by
  induction moments generalizing a with
  | nil => rfl
  | cons b moments ih =>
      obtain ⟨hb, hrest⟩ := List.forall_mem_cons.mp h
      rw [List.foldl_cons, ih hrest]
      cases b with
      | executed i m => rw [Moment.pass, hb, Option.elim_none, List.count_cons_of_ne (by simp)]
      | ticked => rw [Moment.pass, List.count_cons_self, Nat.sub_sub, Nat.add_comm]

/-- **The last write decides, less the ticks after it.** -/
theorem counts_due (t : Timer) (moments : List Moment) : Counts t moments (due t moments) where
  written before b v after hsplit hb hafter := by
    rw [hsplit, due, List.foldl_append, List.foldl_cons, foldl_pass_of_unset hafter,
      pass_of_written hb]
  unwritten h := by rw [due, foldl_pass_of_unset h, Nat.zero_sub]

/-- The last write found by its place in the list. -/
theorem Counts.eq_of_index {t : Timer} {moments : List Moment} {a k : Nat} {v : UInt8}
    (h : Counts t moments a) (hk : moments[k]?.bind (Moment.written? t) = some v)
    (hafter : Unset t (moments.drop (k + 1))) :
    a = v.toNat - (moments.drop (k + 1)).count .ticked := by
  obtain ⟨b, hb, hv⟩ := Option.bind_eq_some_iff.mp hk
  obtain ⟨hlt, rfl⟩ := List.getElem?_eq_some_iff.mp hb
  refine h.written (moments.take k) _ v _ ?_ hv hafter
  rw [← List.drop_eq_getElem_cons hlt, List.take_append_drop]

namespace Machine

/-- What a run of at most `n` cycles executes. -/
def moments (n : Nat) (m : Machine) : List Moment :=
  (executions n m).map fun e => .executed e.1 e.2

/-- The moments since the last reset, after an operation. `past` are those before. -/
def noticed (m : Machine) (past : List Moment) : Operation → List Moment
  | .event .cycle => past ++ moments 1 m
  | .event .tick => past ++ [.ticked]
  | .run n => past ++ moments n m
  | .reset => []
  | _ => past

/-- The moments since the last reset, after operations. -/
def timeline (m : Machine) (past : List Moment) : List Operation → List Moment
  | [] => past
  | op :: ops => (m.perform op).2.timeline (m.noticed past op) ops

/-- The timers are as the moments make them. -/
def Timed (moments : List Moment) (m : Machine) : Prop :=
  ∀ t, (m.registers.timer t).toNat = due t moments

/-! ## What a cycle does to a timer -/

variable {m m' : Machine} {past : List Moment}

theorem timer_of_confined {r r' : Registers} {i : Instruction} {t : Timer}
    (h : r.Confined i r') (hset : i.sets? t = none) : r'.timer t = r.timer t := by
  cases t with
  | delay =>
      refine h.delay fun x hx => ?_
      rw [hx] at hset
      cases hset
  | sound =>
      refine h.sound fun x hx => ?_
      rw [hx] at hset
      cases hset

/-- An instruction made for a timer puts its register there, and leaves the register alone. -/
theorem timer_of_set {i : Instruction} {t : Timer} {x : UInt8} (h : Cycled m (.ok i) m')
    (hset : i.sets? t = some x) : m'.registers.timer t = m'.registers.get x := by
  unfold Instruction.sets? at hset
  split at hset <;> cases hset
  · cases h with
    | executed _ _ _ he =>
        cases he
        rfl
  · cases h with
    | executed _ _ _ he =>
        cases he
        rfl

theorem timer_of_unset {i : Instruction} {t : Timer} (h : Cycled m (.ok i) m')
    (hset : i.sets? t = none) : m'.registers.timer t = m.registers.timer t := by
  cases h with
  | executed _ _ _ he =>
      have hregisters := timer_of_confined (execute_registers he) hset
      rw [show m.advanced.registers.timer t = m.registers.timer t by cases t <;> rfl] at hregisters
      exact hregisters
  | released _ _ => cases t <;> rfl
  | blocked _ _ => rfl

/-! ## Every operation -/

theorem Timed.executed {i : Instruction} (h : Timed past m) (hc : Cycled m (.ok i) m') :
    Timed (past ++ [.executed i m']) m' := by
  intro t
  rw [due_concat, Moment.pass, Moment.written?]
  cases hset : i.sets? t with
  | none => exact (congrArg UInt8.toNat (timer_of_unset hc hset)).trans (h t)
  | some x => exact congrArg UInt8.toNat (timer_of_set hc hset)

theorem Timed.faulted {e : Fault} (h : Timed past m) (hc : Cycled m (.error e) m') :
    Timed past m' := by
  obtain ⟨hdelay, hsound⟩ := timers_of_faulted hc
  intro t
  rw [← h t]
  cases t with
  | delay => exact congrArg UInt8.toNat hdelay
  | sound => exact congrArg UInt8.toNat hsound

theorem Timed.tick (h : Timed past m) : Timed (past ++ [.ticked]) m.tick := by
  intro t
  rw [due_concat, Moment.pass, ← h t]
  cases t with
  | delay => exact Stopped.toNat_countdown _
  | sound => exact Stopped.toNat_countdown _

theorem Timed.run (h : Timed past m) (n : Nat) : Timed (past ++ moments n m) (m.run n).2 := by
  induction n generalizing past m with
  | zero =>
      rw [moments, executions, List.map_nil, List.append_nil]
      exact h
  | succ n ih =>
      rw [moments, executions, run_succ]
      rcases hc : m.cycle with ⟨e | i, m₁⟩
      · rw [List.map_nil, List.append_nil]
        exact h.faulted (cycled_of_eq hc)
      · rw [List.map_cons, List.append_cons]
        exact ih (h.executed (cycled_of_eq hc))

/-- **No operation touches a timer but for a write, a tick and a reset.** -/
theorem Timed.perform (h : Timed past m) (op : Operation) :
    Timed (m.noticed past op) (m.perform op).2 := by
  cases op with
  | event e =>
      cases e with
      | cycle =>
          have hone := h.run 1
          rw [run_succ] at hone
          simp only [Machine.perform, handle, noticed]
          rcases hc : m.cycle with ⟨e | i, m₁⟩ <;> rw [hc] at hone <;> exact hone
      | tick => exact h.tick
      | key key down =>
          obtain ⟨keypad, hm⟩ := m.exists_handle_key key down
          simp only [noticed, Machine.perform, hm]
          exact h
      | repaint => exact h
  | run n =>
      rw [Machine.perform, runCycles_snd]
      exact h.run n
  | load program =>
      obtain ⟨memory, hm⟩ := m.exists_perform_load program
      simp only [noticed, hm]
      exact h
  | reset =>
      intro t
      cases t <;> rfl

theorem Timed.perform_all (h : Timed past m) (ops : List Operation) :
    Timed (m.timeline past ops) (answersTo Machine.perform m ops).2 := by
  induction ops generalizing past m with
  | nil => exact h
  | cons op ops ih => exact ih (h.perform op)

theorem timed_powerOn (random : KeyStream) (seed : Option UInt64) :
    Timed [] (powerOn random seed) := by
  intro t
  cases t <;> rfl

end Machine

namespace Console

/-! ## Frames -/

/-- The moments of a frame: what its cycles execute, and a tick if it is completed. -/
def frameMoments (c : Console) : List Moment :=
  c.machine.moments c.budget.toNat ++
    match c.runFrame.1 with
    | .ok _ => [.ticked]
    | .error _ => []

/-- The moments of `n` frames, or of those up to the first that faults. -/
def advanceMoments : Nat → Console → List Moment
  | 0, _ => []
  | n + 1, c =>
    c.frameMoments ++
      match c.runFrame with
      | (.error _, _) => []
      | (.ok _, c') => advanceMoments n c'

/-- The moments since the last reset, after a request. `past` are those before. -/
def noticed (c : Console) (past : List Moment) : Request → List Moment
  | .frame => past ++ c.frameMoments
  | .frames n => past ++ advanceMoments n c
  | .restart _ => []
  | .machine op => c.machine.noticed past op
  | _ => past

/-- The moments since the last reset, after requests. -/
def timeline (c : Console) (past : List Moment) : List Request → List Moment
  | [] => past
  | r :: rs => (c.serve r).2.timeline (c.noticed past r) rs

/-- The timers are as the moments make them, and as many ticks were noticed as frames were
completed. -/
structure Timed (moments : List Moment) (c : Console) : Prop where
  machine : c.machine.Timed moments
  frames : moments.count .ticked = c.frames

variable {c : Console} {past : List Moment}

theorem count_moments (n : Nat) (m : Machine) : (m.moments n).count .ticked = 0 := by
  refine List.count_eq_zero_of_not_mem fun h => ?_
  obtain ⟨e, -, he⟩ := List.mem_map.mp h
  cases he

/-- Only a tick is noticed as one. -/
theorem count_noticed {m : Machine} {op : Operation} (htick : op ≠ .event .tick)
    (hreset : op ≠ .reset) : (m.noticed past op).count .ticked = past.count .ticked := by
  cases op with
  | event e =>
      cases e with
      | cycle => rw [Machine.noticed, List.count_append, count_moments, Nat.add_zero]
      | tick => exact absurd rfl htick
      | key key down => rfl
      | repaint => rfl
  | run n => rw [Machine.noticed, List.count_append, count_moments, Nat.add_zero]
  | load program => rfl
  | reset => exact absurd rfl hreset

/-- **A frame ticks once if it completes**, whatever its budget, and not at all if it faults. -/
theorem Timed.frame (h : Timed past c) : Timed (past ++ c.frameMoments) c.runFrame.2 := by
  have hf := c.runFrame_framed
  have hrun := h.machine.run c.budget.toNat
  rw [frameMoments, ← List.append_assoc]
  rcases hc : c.runFrame with ⟨r, c'⟩
  rw [hc] at hf
  cases hf with
  | completed hm =>
      rw [hm] at hrun
      refine ⟨hrun.tick, ?_⟩
      rw [List.count_append, List.count_append, count_moments, h.frames]
      rfl
  | abandoned hm =>
      rw [hm] at hrun
      refine ⟨(List.append_nil _).symm ▸ hrun, ?_⟩
      rw [List.count_append, List.count_append, count_moments, h.frames]
      rfl

theorem Timed.advance (h : Timed past c) (n : Nat) :
    Timed (past ++ advanceMoments n c) (Console.advance n c).2 := by
  induction n generalizing past c with
  | zero =>
      rw [advanceMoments, List.append_nil]
      exact h
  | succ n ih =>
      have hframe := h.frame
      rw [advanceMoments, advance_succ, ← List.append_assoc]
      rcases hc : c.runFrame with ⟨e | r, c'⟩ <;> rw [hc] at hframe
      · rw [List.append_nil]
        exact hframe
      · exact ih hframe

theorem Timed.serve (h : Timed past c) {r : Request} (htick : r ≠ .machine (.event .tick))
    (hreset : r ≠ .machine .reset) : Timed (c.noticed past r) (c.serve r).2 := by
  cases r with
  | frame => exact h.frame
  | frames n =>
      rw [Console.serve, runFrames_snd]
      exact h.advance n
  | load image =>
      rw [serve_load]
      exact ⟨h.machine.perform (.load image), h.frames⟩
  | key key down =>
      rw [serve_key]
      exact ⟨h.machine.perform (.event (.key key down)), h.frames⟩
  | restart image =>
      rw [serve_restart, serve_load]
      exact ⟨(h.machine.perform .reset).perform (.load image), rfl⟩
  | machine op =>
      refine ⟨h.machine.perform op, ?_⟩
      rw [noticed, count_noticed (fun he => htick (he ▸ rfl)) (fun he => hreset (he ▸ rfl)), h.frames]
      rfl

theorem Timed.serve_all (h : Timed past c) {requests : List Request}
    (htick : .machine (.event .tick) ∉ requests) (hreset : .machine .reset ∉ requests) :
    Timed (c.timeline past requests) (answersTo Console.serve c requests).2 := by
  induction requests generalizing past c with
  | nil => exact h
  | cons r rs ih =>
      obtain ⟨ht, hts⟩ := List.ne_and_not_mem_of_not_mem_cons htick
      obtain ⟨hr, hrs⟩ := List.ne_and_not_mem_of_not_mem_cons hreset
      exact ih (h.serve ht.symm hr.symm) hts hrs

theorem timed_new {s : Settings} {entropy : KeyStream} (h : Console.new s entropy = .ok c) :
    Timed [] c := by
  obtain ⟨-, rfl⟩ := new_eq_ok h
  obtain ⟨random, seed, hfresh⟩ := exists_freshMachine s entropy
  exact ⟨hfresh ▸ Machine.timed_powerOn random seed, rfl⟩

end Console

/--
**Timers count ticks and nothing else.**

After any operations on a machine, each timer is what an instruction has last put there
since the last reset, less the ticks since, and never below zero. The same holds of a
console that is asked for frames, loads, keys and restarts, and whose machine may also
be used past it, short of ticks and resets. There the ticks are the frames that were
completed: those in the whole list of moments are the frames that the console has
counted, and a frame in which the timer was set comes after it, at its end.
-/
theorem timers_count_ticks :
    (∀ (random : KeyStream) (seed : Option UInt64) (ops : List Operation) (t : Timer),
      let m := Machine.powerOn random seed
      Counts t (m.timeline [] ops)
        ((answersTo Machine.perform m ops).2.registers.timer t).toNat) ∧
    (∀ (s : Settings) (entropy : KeyStream) (c : Console) (requests : List Request) (t : Timer),
      Console.new s entropy = .ok c → .machine (.event .tick) ∉ requests →
      .machine .reset ∉ requests →
      let c' := (answersTo Console.serve c requests).2
      Counts t (c.timeline [] requests) (c'.machine.registers.timer t).toNat ∧
      (c.timeline [] requests).count .ticked = c'.frames) := by
  constructor
  · intro random seed ops t m
    have htimed := (Machine.timed_powerOn random seed).perform_all ops
    exact htimed t ▸ counts_due t _
  · intro s entropy c requests t hnew htick hreset c'
    have htimed := (Console.timed_new hnew).serve_all htick hreset
    exact ⟨htimed.machine t ▸ counts_due t _, htimed.frames⟩

/-- Both timers are set between ticks, and then a cycle faults: the delay timer has seen four ticks,
and the sound timer, set to two, three. On a console, at two or three cycles a frame, the timer is set in
the first of four frames. -/
theorem timers_count_ticks_set :
    let image : List UInt8 := [0x60, 0x09, 0xF0, 0x15, 0x61, 0x02, 0xF1, 0x18, 0x00, 0xEE]
    let tick : Operation := .event .tick
    let ops : List Operation := [.load image, .run 2, tick, .run 4, tick, tick, tick]
    let registers := (answersTo Machine.perform (.powerOn (.ofSeed 7) none) ops).2.registers
    let c : Console := ⟨.ofSeed 7, ⟨130, 60, some 7⟩, 0, 0⟩
    let requests : List Request :=
      [.load [0x60, 0x09, 0xF0, 0x15, 0x12, 0x04], .frame, .key 3 true, .frames 3]
    let c' := (answersTo Console.serve c requests).2
    ((registers.timer .delay).toNat = 9 - 4 ∧ (registers.timer .sound).toNat = 2 - 3) ∧
    Console.new ⟨130, 60, some 7⟩ (.ofSeed 0) = .ok c ∧ .machine (.event .tick) ∉ requests ∧
      .machine .reset ∉ requests ∧ (c'.machine.registers.timer .delay).toNat = 9 - 4 ∧
      c'.frames = 4 := by
  intro image tick ops registers c requests c'
  let moments := (Machine.powerOn (.ofSeed 7) none).timeline [] ops
  let framed := c.timeline [] requests
  -- one evaluation of each list of moments
  have hmoments : moments[1]?.bind (Moment.written? .delay) = some 9 ∧
      Unset .delay (moments.drop 2) ∧ (moments.drop 2).count .ticked = 4 ∧
      moments[4]?.bind (Moment.written? .sound) = some 2 ∧
      Unset .sound (moments.drop 5) ∧ (moments.drop 5).count .ticked = 3 := by decide +kernel
  have hframed : framed[1]?.bind (Moment.written? .delay) = some 9 ∧
      Unset .delay (framed.drop 2) ∧ (framed.drop 2).count .ticked = 4 ∧
      framed.count .ticked = 4 := by decide +kernel
  obtain ⟨hdelay, hdelayed, hticks, hsound, hsounded, hticks'⟩ := hmoments
  obtain ⟨hset, hunset, hframes, hall⟩ := hframed
  have hmachine := timers_count_ticks.1 (.ofSeed 7) none ops
  have hticked : .machine (.event .tick) ∉ requests := by decide
  have hreset : .machine .reset ∉ requests := by decide
  obtain ⟨hconsole, hcounted⟩ :=
    timers_count_ticks.2 ⟨130, 60, some 7⟩ (.ofSeed 0) c requests .delay rfl hticked hreset
  have hdelay' := (hmachine .delay).eq_of_index hdelay hdelayed
  have hsound' := (hmachine .sound).eq_of_index hsound hsounded
  have hset' := hconsole.eq_of_index hset hunset
  rw [hticks] at hdelay'
  rw [hticks'] at hsound'
  rw [hframes] at hset'
  exact ⟨⟨hdelay', hsound'⟩, rfl, hticked, hreset, hset', hcounted.symm.trans hall⟩

end ChipEight
