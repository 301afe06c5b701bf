import ChipEight.Proofs.Frames
import ChipEight.Proofs.Sessions
import ChipEight.Proofs.TracedRuns

/-!
# Stopping on a key wait loses nothing

A run without a keyboard stops when a frame ends blocked on a key. Had it gone on for the
frames that were left, none would have faulted, and they would have left nothing but what
counts them: the cycles and frames, the carry, and the timers.

No key is ever pressed in such a run, so what has blocked stays blocked. A blocked cycle
reports the key wait again, which it had reported before, and changes only the count of
cycles (`Unattended.run_of_blocked`). A frame of such cycles then ticks, and takes a
repaint mark that the frame before it has already taken.
-/

namespace ChipEight

namespace Machine

/-- A blocked machine has reported its key wait. -/
def WaitReported (m : Machine) : Prop :=
  ∀ x a, m.status = .awaitingKey x a → m.lastInstruction = some (.waitKey x)

/-- A machine at whose keys nobody sits. -/
structure Unattended (m : Machine) : Prop where
  /-- No key is down. -/
  released : m.keypad.first? = none
  /-- A key wait that blocks was reported. -/
  reported : m.WaitReported

variable {m m' : Machine}

theorem exists_status_of_isAwaitingKey (h : m.isAwaitingKey = true) :
    ∃ x a, m.status = .awaitingKey x a := by
  unfold isAwaitingKey at h
  split at h
  · rename_i x a hs
    exact ⟨x, a, hs⟩
  · cases h

theorem WaitReported.cycled {r : Except Fault Instruction} (h : m.WaitReported)
    (hc : Cycled m r m') : m'.WaitReported := by
  cases hc with
  | unfetched _ _ | undecoded _ _ _ | refused _ _ _ _ | released _ _ =>
      intro x a hw
      cases hw
  | executed hs _ _ he =>
      intro x a hw
      have hrunning : m.advanced.status = .running := hs
      obtain ⟨rfl, -⟩ := execute_blocks hrunning he hw
      rfl
  | blocked hs _ =>
      intro x a hw
      cases hs.symm.trans hw
      rfl
  | stopped _ => exact h

/-- **No cycle presses a key**, and one that blocks is reported. -/
theorem Unattended.cycle (h : m.Unattended) : m.cycle.2.Unattended where
  released := keypad_cycled m.cycle_cycled ▸ h.released
  reported := h.reported.cycled m.cycle_cycled

theorem unattended_powerOn (random : KeyStream) (seed : Option UInt64) :
    (powerOn random seed).Unattended where
  released := show Keypad.released.first? = none by decide
  reported := by
    intro x a hw
    cases hw

/-- **A machine that waits in vain only counts.** -/
theorem Unattended.run_of_blocked (h : m.Unattended) (hb : m.isAwaitingKey = true) (n : Nat) :
    m.run n = (none, { m with cycles := m.cycles + n }) := by
  obtain ⟨x, a, hs⟩ := exists_status_of_isAwaitingKey hb
  induction n generalizing m with
  | zero => rfl
  | succ n ih =>
      have hrecord : m.record (.waitKey x) = { m with cycles := m.cycles + 1 } := by
        rw [record, ← h.reported x a hs]
      have hnext : Unattended { m with cycles := m.cycles + 1 } := ⟨h.released, h.reported⟩
      rw [run_succ, (Cycled.blocked hs h.released).cycle_eq, hrecord]
      refine (ih hnext hb hs).trans ?_
      simp only [Nat.add_assoc, Nat.add_comm 1]

end Machine

namespace Console

/-! ## Frames of a console that waits -/

/-- `c.Idled k c'`: what `k` frames leave of a console that waits. Only the counts of cycles and
frames, the carry and the timers are others. -/
def Idled (c : Console) (k : Nat) (c' : Console) : Prop :=
  ∃ cycles delay sound carry, c' = { c with
    machine := { c.machine with
      cycles, registers := { c.machine.registers with delay, sound } }
    frames := c.frames + k
    carry }

/-- A console that waits for a key that nobody will press, and shows all that it has drawn. -/
structure Waiting (c : Console) : Prop where
  unattended : c.machine.Unattended
  blocked : c.machine.isAwaitingKey = true
  settled : c.machine.screen.dirty = false

variable {c c' c'' : Console} {j k : Nat}

theorem idled_zero (c : Console) : c.Idled 0 c :=
  ⟨c.machine.cycles, c.machine.registers.delay, c.machine.registers.sound, c.carry, rfl⟩

theorem Idled.trans (h : c.Idled j c') (h' : c'.Idled k c'') : c.Idled (j + k) c'' := by
  obtain ⟨_, _, _, _, rfl⟩ := h
  obtain ⟨cycles, delay, sound, carry, rfl⟩ := h'
  exact ⟨cycles, delay, sound, carry, by rw [Nat.add_assoc]⟩

theorem Idled.waiting (h : c.Idled k c') (hc : c.Waiting) : c'.Waiting := by
  obtain ⟨_, _, _, _, rfl⟩ := h
  exact ⟨⟨hc.unattended.released, hc.unattended.reported⟩, hc.blocked, hc.settled⟩

/-- **A frame of a console that waits completes**, and only counts. -/
theorem Waiting.frame (h : c.Waiting) : ∃ r c', c.runFrame = (.ok r, c') ∧ c.Idled 1 c' := by
  have hrun := h.unattended.run_of_blocked h.blocked c.budget.toNat
  refine ⟨_, _, runFrame_of_run_none hrun, c.machine.cycles + c.budget.toNat,
    c.machine.registers.tick.delay, c.machine.registers.tick.sound,
    c.settings.nextCarry c.carry, ?_⟩
  -- there is no repaint mark that the frame could take
  have hsettle : c.machine.screen.settle = c.machine.screen := by
    rw [Screen.settle, ← h.settled]
  rw [complete, Machine.settle, Machine.tick, hsettle]
  rfl

/-- So does any number of frames. -/
theorem Waiting.advance (h : c.Waiting) (n : Nat) :
    ∃ c', Console.advance n c = (none, c') ∧ c.Idled n c' := by
  induction n generalizing c with
  | zero => exact ⟨c, rfl, c.idled_zero⟩
  | succ n ih =>
      obtain ⟨r, c₁, hframe, hidled⟩ := h.frame
      obtain ⟨c₂, hrest, hidled'⟩ := ih (hidled.waiting h)
      refine ⟨c₂, ?_, Nat.add_comm 1 n ▸ hidled.trans hidled'⟩
      rw [advance_succ, hframe]
      exact hrest

/-! ## The run that stopped -/

theorem advance_add (h : Console.advance j c = (none, c')) (k : Nat) :
    Console.advance (j + k) c = Console.advance k c' := by
  induction j generalizing c with
  | zero =>
      cases h
      rw [Nat.zero_add]
  | succ j ih =>
      rw [advance_succ] at h
      rw [Nat.succ_add, advance_succ]
      rcases hc : c.runFrame with ⟨e | r, c₁⟩ <;> rw [hc] at h
      · cases h
      · exact ih h

theorem frames_advance (h : Console.advance j c = (none, c')) : c'.frames = c.frames + j := by
  induction j generalizing c with
  | zero =>
      cases h
      rfl
  | succ j ih =>
      rw [advance_succ] at h
      have hf := c.runFrame_framed
      rcases hc : c.runFrame with ⟨e | r, c₁⟩ <;> rw [hc] at h hf
      · cases h
      · have hcount : c₁.frames = c.frames + 1 := by
          cases hf
          rfl
        rw [ih h, hcount, Nat.add_assoc, Nat.add_comm 1]

/-- Frames leave a console unattended. -/
theorem unattended_frame (h : c.machine.Unattended) : c.runFrame.2.machine.Unattended := by
  have hrun := Machine.run_keeps Machine.Unattended.cycle c.budget.toNat h
  have hf := c.runFrame_framed
  rcases hc : c.runFrame with ⟨r, c'⟩
  rw [hc] at hf
  cases hf with
  | completed hm | abandoned hm =>
      rw [hm] at hrun
      exact ⟨hrun.released, hrun.reported⟩

/-- **A run that stops on a key wait has completed the frames up to there**, and waits. -/
theorem waiting_of_headless {n : Nat} (h : c.headless n = (.blocked, c'))
    (hc : c.machine.Unattended) :
    ∃ m ≤ n, Console.advance m c = (none, c') ∧ c'.Waiting := by
  induction n generalizing c with
  | zero => cases h
  | succ n ih =>
      have hf := c.runFrame_framed
      have hnext := unattended_frame hc
      rw [headless_succ] at h
      rcases hframe : c.runFrame with ⟨e | r, c₁⟩ <;> rw [hframe] at h hf hnext
      · cases h
      · dsimp only at h
        split at h
        · rename_i hawaiting
          cases h
          refine ⟨1, Nat.succ_le_succ (Nat.zero_le n), ?_, hnext, ?_, hf.settled⟩
          · rw [advance_succ, hframe]
            rfl
          · cases hf
            exact hawaiting
        · obtain ⟨m, hm, hadvance, hwaiting⟩ := ih h hnext
          refine ⟨m + 1, Nat.succ_le_succ hm, ?_, hwaiting⟩
          rw [advance_succ, hframe]
          exact hadvance

end Console

namespace CommandLine

/-- A console that is ready to run has completed no frame, and no key is down. -/
theorem unattended_of_prepare {s : Settings} {image : List UInt8} {entropy : KeyStream}
    {c : Console} (h : prepare s image entropy = .ok c) :
    c.machine.Unattended ∧ c.frames = 0 := by
  unfold prepare at h
  split at h
  · cases h
  · rename_i c₀ hnew
    obtain ⟨-, rfl⟩ := Console.new_eq_ok hnew
    split at h
    · cases h
    · rename_i hload
      cases h
      obtain ⟨-, memory, rfl⟩ := Console.load_eq_ok hload
      obtain ⟨random, seed, hfresh⟩ := Console.exists_freshMachine s entropy
      have hpower : (Console.freshMachine s entropy).Unattended :=
        hfresh ▸ Machine.unattended_powerOn random seed
      exact ⟨⟨hpower.released, hpower.reported⟩, rfl⟩

/--
**Stopping on a key wait loses nothing.**

A run without a keyboard that has stopped on a key wait has completed some of its frames.
The frames that were left would have completed as well, so the full run would have
succeeded. And it would have left the console as it is at the stop, but for the counts of
cycles and frames, the carry and the timers.
-/
theorem early_stop_loses_nothing {s : Settings} {image : List UInt8} {entropy : KeyStream}
    {c c₁ : Console} {o : RunOptions} {lines : List String}
    (hc : prepare s image entropy = .ok c) (hrun : runConsole o c = (lines, .blocked, c₁)) :
    let m := c₁.frames
    m ≤ o.frames ∧ Console.advance m c = (none, c₁) ∧
    ∃ c₂, Console.advance (o.frames - m) c₁ = (none, c₂) ∧
      Console.advance o.frames c = (none, c₂) ∧ c₁.Idled (o.frames - m) c₂ := by
  obtain ⟨hfresh, hzero⟩ := unattended_of_prepare hc
  have hheadless : c.headless o.frames = (.blocked, c₁) := by
    rw [runConsole_eq] at hrun
    exact congrArg Prod.snd hrun
  obtain ⟨m, hm, hstopped, hwaiting⟩ := Console.waiting_of_headless hheadless hfresh
  have hframes : c₁.frames = m := by rw [Console.frames_advance hstopped, hzero, Nat.zero_add]
  obtain ⟨c₂, hrest, hidled⟩ := hwaiting.advance (o.frames - m)
  rw [hframes]
  refine ⟨hm, hstopped, c₂, hrest, ?_, hidled⟩
  rw [← hrest, ← Console.advance_add hstopped, Nat.add_sub_cancel' hm]

/-- A run that is blocked in its second frame of five, while the delay timer runs. -/
theorem early_stop_loses_nothing_timer :
    let s : Settings := ⟨130, 60, some 7⟩
    let image : List UInt8 := [0x60, 0x05, 0xF0, 0x15, 0xF1, 0x0A]
    let o : RunOptions := ⟨5, false, false, false, ⟨none, none, none⟩⟩
    let c : Console :=
      ⟨{ Machine.ofSeed 7 with memory := Memory.powerOn.store 0x200 image }, s, 0, 0⟩
    let c₁ := (runConsole o c).2.2
    prepare s image (.ofSeed 0) = .ok c ∧ runConsole o c = ([], .blocked, c₁) ∧
      c₁.frames = 2 ∧ c₁.machine.registers.delay = 3 ∧
      ∃ c₂, Console.advance 5 c = (none, c₂) ∧ c₁.Idled 3 c₂ := by
  intro s image o c c₁
  have hc : prepare s image (.ofSeed 0) = .ok c := rfl
  -- one evaluation of the run
  have hended : (runConsole o c).2.1 = .blocked ∧ c₁.frames = 2 ∧
      c₁.machine.registers.delay = 3 := by decide +kernel
  obtain ⟨hblocked, hframes, hdelay⟩ := hended
  have hrun : runConsole o c = ([], .blocked, c₁) := Prod.ext rfl (Prod.ext hblocked rfl)
  obtain ⟨-, -, c₂, -, hfull, hidled⟩ := early_stop_loses_nothing hc hrun
  rw [hframes] at hidled
  exact ⟨hc, hrun, hframes, hdelay, c₂, hfull, hidled⟩

end CommandLine

end ChipEight
