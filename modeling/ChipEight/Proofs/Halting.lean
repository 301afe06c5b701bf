import ChipEight.Proofs.Cycle
import ChipEight.Proofs.Pacing

/-!
# A fault is final

A machine faults once. The cycle that faults leaves it stopped, every later cycle
is refused, and a refused cycle changes nothing. So all that still moves is what
moves without a cycle: timers that are ticked from outside, keys, memory that a
program is loaded into, and the repaint mark. `Machine.Stopped` says so of a
machine and what is left of it after some ticks; every operation but a reset keeps
it.

For a console the same holds as far as its frames never get past their first
cycle. That needs a first cycle: the budget of a frame is never zero, because the
settings were accepted and what is carried stays below the tick rate.
-/

namespace ChipEight

namespace Machine

/-! ## Which cycles fault -/

section

variable {m m' : Machine}

theorem cycle_of_faulted (h : m.status = .faulted) :
    m.cycle = (.error (.notRunning .faulted), m) := by
  rw [cycle, h]

theorem Cycled.faulted {e : Fault} (h : Cycled m (.error e) m') : m'.status = .faulted := by
  cases h with
  | stopped hs => exact hs
  | _ => rfl

/-- A cycle that succeeds does not stop the machine. -/
theorem Cycled.not_faulted {i : Instruction} (h : Cycled m (.ok i) m') :
    m'.status ≠ .faulted := by
  intro hf
  cases h with
  | @executed _ m₁ hs _ _ he =>
      have hf₁ : m₁.status = .faulted := hf
      have hrunning : m.advanced.status = .running := hs
      by_cases hi : ∃ x, i = .waitKey x
      · obtain ⟨x, rfl⟩ := hi
        rw [execute] at he
        -- with a key the machine still runs, and without one it waits
        split at he <;> cases he
        · have := hrunning.symm.trans hf₁
          cases this
        · cases hf₁
      · have hstatus := execute_status m.advanced m.registers.pc m.word fun x hx => hi ⟨x, hx⟩
        rw [he, hf₁, hrunning] at hstatus
        cases hstatus
  | released _ _ => cases hf
  | blocked hs _ =>
      have := hs.symm.trans hf
      cases this

/-- Only a machine that had stopped before refuses to run. -/
theorem Cycled.ne_notRunning {e : Fault} (h : Cycled m (.error e) m') (hm : m.status ≠ .faulted)
    (status : Status) : e ≠ .notRunning status := by
  rintro rfl
  cases h with
  | refused _ _ hd he =>
      obtain ⟨hu, -⟩ := (execute_eq_error_iff (Word.inRange_of_decode? hd)).mp he
      -- no demand that is not met is reported so
      generalize Instruction.demand _ = d at hu
      cases hu
  | stopped hs => exact hm hs

/-! ## Cycles in a row -/

theorem run_of_faulted (h : m.status = .faulted) (n : Nat) :
    m.run (n + 1) = (some (.notRunning .faulted), m) := by
  rw [run_succ, cycle_of_faulted h]

theorem not_faulted_of_run {n : Nat} (hm : m.status ≠ .faulted) (h : m.run n = (none, m')) :
    m'.status ≠ .faulted := by
  induction n generalizing m with
  | zero =>
      cases h
      exact hm
  | succ n ih =>
      rw [run_succ] at h
      rcases hc : m.cycle with ⟨e | i, m₁⟩ <;> rw [hc] at h
      · cases h
      · exact ih (cycled_of_eq hc).not_faulted h

/-- **A run that faults does so in one of its cycles**, and ends with it. -/
theorem exists_cycle_of_run {n : Nat} {e : Fault} (h : m.run n = (some e, m')) :
    ∃ k < n, ∃ m₁, m.run k = (none, m₁) ∧ m₁.cycle = (.error e, m') := by
  induction n generalizing m with
  | zero => cases h
  | succ n ih =>
      rw [run_succ] at h
      rcases hc : m.cycle with ⟨e' | i, m₁⟩ <;> rw [hc] at h
      · cases h
        exact ⟨0, Nat.succ_pos n, m, rfl, hc⟩
      · obtain ⟨k, hk, m₂, hrun, hfault⟩ := ih h
        refine ⟨k + 1, Nat.succ_lt_succ hk, m₂, ?_, hfault⟩
        rw [run_succ, hc]
        exact hrun

end

/-! ## What is left of a machine that has stopped -/

/-- `Stopped m ticks m'`: `m'` is what is left of `m`, which has faulted, after some ticks. -/
structure Stopped (m : Machine) (ticks : Nat) (m' : Machine) : Prop where
  status : m'.status = .faulted
  v : m'.registers.v = m.registers.v
  i : m'.registers.i = m.registers.i
  pc : m'.registers.pc = m.registers.pc
  stack : m'.registers.stack = m.registers.stack
  delay : m'.registers.delay.toNat = m.registers.delay.toNat - ticks
  sound : m'.registers.sound.toNat = m.registers.sound.toNat - ticks
  pixels : m'.screen.pixels = m.screen.pixels
  random : m'.random = m.random
  cycles : m'.cycles = m.cycles
  lastInstruction : m'.lastInstruction = m.lastInstruction

theorem stopped_self {m : Machine} (h : m.status = .faulted) : m.Stopped 0 m :=
  ⟨h, rfl, rfl, rfl, rfl, rfl, rfl, rfl, rfl, rfl, rfl⟩

namespace Stopped

variable {m m₁ : Machine} {t : Nat}

/-- Keys, memory and the repaint mark may change. -/
theorem congr {m₂ : Machine} (h : m.Stopped t m₁) (hs : m₂.status = m₁.status)
    (hr : m₂.registers = m₁.registers) (hp : m₂.screen.pixels = m₁.screen.pixels)
    (hd : m₂.random = m₁.random) (hc : m₂.cycles = m₁.cycles)
    (hl : m₂.lastInstruction = m₁.lastInstruction) : m.Stopped t m₂ := by
  constructor
  · exact hs.trans h.status
  · exact hr ▸ h.v
  · exact hr ▸ h.i
  · exact hr ▸ h.pc
  · exact hr ▸ h.stack
  · exact hr ▸ h.delay
  · exact hr ▸ h.sound
  · exact hp.trans h.pixels
  · exact hd.trans h.random
  · exact hc.trans h.cycles
  · exact hl.trans h.lastInstruction

/-- A timer counts down by one, and stays at zero. -/
theorem toNat_countdown (a : UInt8) : (if a = 0 then 0 else a - 1).toNat = a.toNat - 1 := by
  split
  · subst a
    rfl
  · rename_i ha
    have hpos : 0 < a.toNat := Nat.pos_of_ne_zero fun h0 => ha (UInt8.toNat_inj.mp h0)
    exact UInt8.toNat_sub_of_le a 1 (UInt8.le_iff_toNat_le.mpr hpos)

theorem tick (h : m.Stopped t m₁) : m.Stopped (t + 1) m₁.tick := by
  have hdelay : m₁.tick.registers.delay.toNat = m₁.registers.delay.toNat - 1 := toNat_countdown _
  have hsound : m₁.tick.registers.sound.toNat = m₁.registers.sound.toNat - 1 := toNat_countdown _
  refine ⟨h.status, h.v, h.i, h.pc, h.stack, ?_, ?_, h.pixels, h.random, h.cycles,
    h.lastInstruction⟩
  · rw [hdelay, h.delay, Nat.sub_sub]
  · rw [hsound, h.sound, Nat.sub_sub]

/-- **Nothing but a reset starts a stopped machine again**, and nothing but a tick moves its
timers. -/
theorem perform (h : m.Stopped t m₁) {op : Operation} (hop : op ≠ .reset) :
    m.Stopped (t + [op].count (.event .tick)) (m₁.perform op).2 := by
  cases op with
  | event e =>
      cases e with
      | cycle =>
          simp only [Machine.perform, handle, cycle_of_faulted h.status]
          exact h
      | tick => exact h.tick
      | key key down =>
          obtain ⟨keypad, hm⟩ := m₁.exists_handle_key key down
          rw [Machine.perform, hm]
          exact h.congr rfl rfl rfl rfl rfl rfl
      | repaint => exact h.congr rfl rfl rfl rfl rfl rfl
  | run n =>
      rw [Machine.perform, runCycles_snd]
      cases n with
      | zero => exact h
      | succ n =>
          rw [run_of_faulted h.status]
          exact h
  | load program =>
      obtain ⟨memory, hm⟩ := m₁.exists_perform_load program
      rw [hm]
      exact h.congr rfl rfl rfl rfl rfl rfl
  | reset => exact absurd rfl hop

theorem perform_all (h : m.Stopped t m₁) {ops : List Operation} (hops : .reset ∉ ops) :
    m.Stopped (t + ops.count (.event .tick)) (answersTo Machine.perform m₁ ops).2 := by
  induction ops generalizing t m₁ with
  | nil => exact h
  | cons op ops ih =>
      obtain ⟨hop, hrest⟩ := List.ne_and_not_mem_of_not_mem_cons hops
      have hnext := ih (h.perform hop.symm) hrest
      rwa [Nat.add_assoc, ← List.count_append] at hnext

end Stopped

end Machine

/-! ## Refusals -/

/-- What a stopped machine answers when it is told to run. -/
def Operation.refusal? : Operation → Option Answer
  | event .cycle => some (.cycled (.error (.notRunning .faulted)))
  | run (_ + 1) => some (.ran (.error (.notRunning .faulted)))
  | _ => none

/-- What a console with a stopped machine answers when it or its machine is told to run. -/
def Request.refusal? : Request → Option Reply
  | frame => some (.framed (.error (.notRunning .faulted)))
  | frames (_ + 1) => some (.ran (.error (.notRunning .faulted)))
  | machine op => op.refusal?.map .machine
  | _ => none

theorem Machine.perform_refusal {m : Machine} (h : m.status = .faulted) {op : Operation}
    {a : Answer} (ha : op.refusal? = some a) : (m.perform op).1 = a := by
  cases op with
  | event e =>
      cases e with
      | cycle =>
          cases ha
          rw [Machine.perform, handle, cycle_of_faulted h]
      | _ => cases ha
  | run n =>
      cases n with
      | zero => cases ha
      | succ n =>
          cases ha
          rw [Machine.perform, runCycles, run_of_faulted h]
  | _ => cases ha

/-! ## Consoles -/

/-- Whether a request brings the machine back to power-on. -/
def Request.resets : Request → Bool
  | restart _ => true
  | machine .reset => true
  | _ => false

namespace Console

/-- `Stopped c ticks c'`: `c'` is what is left of `c`, whose machine has faulted, after some
ticks. -/
structure Stopped (c : Console) (ticks : Nat) (c' : Console) : Prop where
  machine : c.machine.Stopped ticks c'.machine
  frames : c'.frames = c.frames

variable {s : Settings} {entropy : KeyStream} {c : Console}

/-- What a reachable console carries is below the tick rate. -/
theorem carry_lt_reachable (h : Reachable s entropy c) : c.carry.toNat < s.timerHz.toNat := by
  suffices hkept : Kept fun c =>
      (c.settings = s ∧ s.validate = .ok ()) ∧ c.carry.toNat < s.timerHz.toNat by
    refine (hkept.reachable (fun hc => ?_) h).2
    obtain ⟨hv, rfl⟩ := new_eq_ok hc
    exact ⟨⟨rfl, hv⟩, (Settings.rates_of_validate hv).1⟩
  constructor
  · rintro c ⟨⟨hs, hv⟩, hcarry⟩
    have hf := c.runFrame_framed
    refine ⟨⟨hf.settings.trans hs, hv⟩, ?_⟩
    rw [hf.carry, hs, Settings.toNat_nextCarry hv hcarry]
    exact Nat.mod_lt _ (Settings.rates_of_validate hv).1
  · exact fun op h => h
  · rintro c ⟨⟨hs, hv⟩, -⟩
    exact ⟨⟨hs, hv⟩, (Settings.rates_of_validate hv).1⟩

/-- No frame of a reachable console is without a cycle. -/
theorem budget_pos_reachable (h : Reachable s entropy c) : 0 < c.budget.toNat := by
  obtain ⟨hs, hv⟩ := settings_reachable h
  rw [budget, hs]
  exact (Settings.frameBudget_floor_or_ceil hv (carry_lt_reachable h)).2

/-- **A frame of a stopped machine ends before its first cycle.** -/
theorem runFrame_of_faulted (h : Reachable s entropy c) (hm : c.machine.status = .faulted) :
    c.runFrame = (.error (.notRunning .faulted), c.abandon c.machine) := by
  obtain ⟨n, hn⟩ := Nat.exists_eq_succ_of_ne_zero (Nat.ne_of_gt (budget_pos_reachable h))
  have hrun := Machine.runWith_snd (fun _ _ s => s) c.budget.toNat () c.machine
  rw [hn, Machine.run_of_faulted hm] at hrun
  rw [runFrame, runFrameWith, hn]
  split <;> rename_i hw <;> rw [hw] at hrun <;> cases hrun
  rfl

theorem advance_of_faulted (h : Reachable s entropy c) (hm : c.machine.status = .faulted)
    (n : Nat) : advance (n + 1) c = (some (.notRunning .faulted), c.abandon c.machine) := by
  rw [advance_succ, runFrame_of_faulted h hm]

theorem serve_refusal (h : Reachable s entropy c) (hm : c.machine.status = .faulted) {r : Request}
    {a : Reply} (ha : r.refusal? = some a) : (c.serve r).1 = a := by
  cases r with
  | frame =>
      cases ha
      rw [serve, runFrame_of_faulted h hm]
  | frames n =>
      cases n with
      | zero => cases ha
      | succ n =>
          cases ha
          rw [serve, runFrames, advance_of_faulted h hm]
  | machine op =>
      obtain ⟨a', ha', rfl⟩ := Option.map_eq_some_iff.mp ha
      rw [serve, Machine.perform_refusal hm ha']
  | _ => cases ha

namespace Stopped

variable {c₁ : Console} {t : Nat}

/-- **Nothing but a reset starts the machine again**, and no frame is counted. -/
theorem serve (h : c.Stopped t c₁) (hc : Reachable s entropy c₁) {r : Request}
    (hr : r.resets = false) :
    c.Stopped (t + [r].count (.machine (.event .tick))) (c₁.serve r).2 := by
  have hm := h.machine.status
  cases r with
  | frame =>
      rw [Console.serve, runFrame_of_faulted hc hm]
      exact ⟨h.machine, h.frames⟩
  | frames n =>
      rw [Console.serve, runFrames_snd]
      cases n with
      | zero => exact h
      | succ n =>
          rw [advance_of_faulted hc hm]
          exact ⟨h.machine, h.frames⟩
  | load image =>
      rw [serve_load]
      have hop : Operation.load image ≠ .reset := by rintro ⟨⟩
      exact ⟨h.machine.perform hop, h.frames⟩
  | key key down =>
      rw [serve_key]
      have hop : Operation.event (.key key down) ≠ .reset := by rintro ⟨⟩
      exact ⟨h.machine.perform hop, h.frames⟩
  | restart image => cases hr
  | machine op =>
      have hop : op ≠ .reset := by
        rintro rfl
        cases hr
      have hcount : [Request.machine op].count (.machine (.event .tick)) =
          [op].count (.event .tick) := by
        simp [List.count_singleton]
      rw [hcount]
      exact ⟨h.machine.perform hop, h.frames⟩

theorem serve_all (h : c.Stopped t c₁) (hc : Reachable s entropy c₁) {requests : List Request}
    (hr : ∀ r ∈ requests, r.resets = false) :
    c.Stopped (t + requests.count (.machine (.event .tick)))
      (answersTo Console.serve c₁ requests).2 := by
  induction requests generalizing t c₁ with
  | nil => exact h
  | cons r rs ih =>
      have hnext := ih (h.serve hc (hr r List.mem_cons_self)) (hc.serve r) fun r' hm =>
        hr r' (List.mem_cons_of_mem r hm)
      rwa [Nat.add_assoc, ← List.count_append] at hnext

end Stopped

/--
**A fault is final.**

Take a machine that has faulted, and any operations but a reset; or a console with such
a machine, and any requests but those that reset it. The machine stays faulted, and all
that makes up its execution stays as it was. The timers count the ticks that were asked
for outright, so no frame ticks them, and no frame is counted. Whatever asks for a cycle
is refused, since no frame is without a cycle.
-/
theorem fault_final :
    (∀ (m : Machine) (ops : List Operation), m.status = .faulted → .reset ∉ ops →
      m.Stopped (ops.count (.event .tick)) (answersTo Machine.perform m ops).2 ∧
      ∀ (k : Nat) (op : Operation) (a : Answer), ops[k]? = some op → op.refusal? = some a →
        (answersTo Machine.perform m ops).1[k]? = some a) ∧
    ∀ (s : Settings) (entropy : KeyStream) (c : Console) (requests : List Request),
      Reachable s entropy c → c.machine.status = .faulted →
      (∀ r ∈ requests, r.resets = false) →
        c.Stopped (requests.count (.machine (.event .tick))) (answersTo serve c requests).2 ∧
        ∀ (k : Nat) (r : Request) (a : Reply), requests[k]? = some r → r.refusal? = some a →
          (answersTo serve c requests).1[k]? = some a := by
  constructor
  · intro m ops hm hops
    have hself := Machine.stopped_self hm
    have hstopped := hself.perform_all hops
    rw [Nat.zero_add] at hstopped
    refine ⟨hstopped, fun k op a hk ha => ?_⟩
    -- the operations before it have left the machine stopped
    have htake : .reset ∉ ops.take k := fun hmem => hops (List.mem_of_mem_take hmem)
    have hbefore := hself.perform_all htake
    rw [getElem?_answersTo, hk, Option.map_some, Machine.perform_refusal hbefore.status ha]
  · intro s entropy c requests hc hm hr
    have hself : c.Stopped 0 c := ⟨Machine.stopped_self hm, rfl⟩
    have hstopped := hself.serve_all hc hr
    rw [Nat.zero_add] at hstopped
    refine ⟨hstopped, fun k r a hk ha => ?_⟩
    have htake : ∀ r ∈ requests.take k, r.resets = false := fun r hmem =>
      hr r (List.mem_of_mem_take hmem)
    have hbefore := hself.serve_all hc htake
    have hreach := answersTo_keeps (fun _ r h => h.serve r) hc (requests.take k)
    rw [getElem?_answersTo, hk, Option.map_some,
      serve_refusal hreach hbefore.machine.status ha]

/-- A return without a call stops a machine with a timer running, by itself and in a frame. Ticks
still count the timer down, frames do not, and the program that is loaded then does not run. -/
theorem fault_final_return :
    let image : List UInt8 := [0x60, 0x05, 0xF0, 0x15, 0x00, 0xEE]
    let m := (answersTo Machine.perform (.ofSeed 7) [.load image, .run 3]).2
    let ops : List Operation := [.event .tick, .load [0x12, 0x00], .run 2, .event .cycle]
    let c₀ : Console :=
      { machine := .ofSeed 7, settings := ⟨480, 60, some 7⟩, frames := 0, carry := 0 }
    let c := (answersTo serve c₀ [.load image, .frame]).2
    let requests : List Request := [.machine (.event .tick), .frame, .frames 2]
    (m.status = .faulted ∧ .reset ∉ ops ∧
      (answersTo Machine.perform m ops).2.registers.delay.toNat = 4 ∧
      (answersTo Machine.perform m ops).1[2]? =
        some (.ran (.error (.notRunning .faulted)))) ∧
    Reachable c₀.settings (.ofSeed 0) c ∧ c.machine.status = .faulted ∧
      (∀ r ∈ requests, r.resets = false) ∧
      (answersTo serve c requests).2.machine.registers.delay.toNat = 4 ∧
      (answersTo serve c requests).1[1]? =
        some (.framed (.error (.notRunning .faulted))) := by
  intro image m ops c₀ c requests
  -- one evaluation of each run
  have hm : m.status = .faulted ∧ m.registers.delay = 5 := by decide +kernel
  have hc : c.machine.status = .faulted ∧ c.machine.registers.delay = 5 := by decide +kernel
  have hreach : Reachable c₀.settings (.ofSeed 0) c := ((Reachable.new rfl).serve _).serve .frame
  have hops : Operation.reset ∉ ops := by decide
  have hrequests : ∀ r ∈ requests, r.resets = false := by decide
  obtain ⟨hleft, hanswers⟩ := fault_final.1 m ops hm.1 hops
  obtain ⟨hcleft, hreplies⟩ := fault_final.2 _ _ c requests hreach hc.1 hrequests
  refine ⟨⟨hm.1, hops, ?_, hanswers 2 _ _ rfl rfl⟩, hreach, hc.1, hrequests, ?_,
    hreplies 1 _ _ rfl rfl⟩
  · rw [hleft.delay, hm.2]
    decide
  · rw [hcleft.machine.delay, hc.2]
    decide

end Console

end ChipEight
