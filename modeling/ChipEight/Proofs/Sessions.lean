import ChipEight.Player.Session
import ChipEight.Proofs.FailedRestart
import ChipEight.Proofs.Halting

/-!
# What happens to a session

Everything that can happen to a session, as data: key events with their times, the
sweep that lets go of keys, a change of what the terminal reports, ticks, single steps,
pausing and resets. Nothing here replaces the image or reaches past the session to its
console.

An input comes down to one of three things (`Reacted`). It plays, that is, it lets the
machine run, by a tick or by a step. It resets. Or it handles keys and flags, and then
of the machine it changes the keypad at most. What playing may leave is listed once, in
`Played`, so that a tick and a step need one argument and not two.
-/

namespace ChipEight

/-- What can happen to a session. Times are nanoseconds. -/
inductive Input where
  | key (code : KeyCode) (event : KeyEvent) (now : Nat)
  /-- Keys that were held for long enough are let go of. -/
  | expire (now : Nat)
  /-- From now on the terminal does or does not report releases. -/
  | reports (releases : Bool)
  | tick
  | step
  | pause
  | reset
deriving DecidableEq

namespace Machine

theorem keypad_cycled {m m' : Machine} {r : Except Fault Instruction} (h : Cycled m r m') :
    m'.keypad = m.keypad := by
  cases h with
  | refused _ _ _ he | executed _ _ _ he =>
      obtain ⟨hk, -⟩ := execute_frame m.advanced m.registers.pc m.word ‹Instruction›
      rw [he] at hk
      exact hk
  | _ => rfl

/-- Programs press no keys. -/
theorem keypad_run {m m' : Machine} {n : Nat} {e : Option Fault} (h : m.run n = (e, m')) :
    m'.keypad = m.keypad := by
  have hkept := run_keeps (P := fun m' => m'.keypad = m.keypad)
    (fun {m₁} h => (keypad_cycled m₁.cycle_cycled).trans h) n rfl
  rwa [h] at hkept

end Machine

namespace Session

/-- The session after an input. -/
def react (s : Session) : Input → Session
  | .key code event now => s.handleKey code event now
  | .expire now => s.releaseExpired now
  | .reports releases => { s with releaseEvents := releases }
  | .tick => s.tick
  | .step => s.step
  | .pause => s.togglePause
  | .reset => s.reset

/-- The session after inputs. -/
def after (s : Session) (inputs : List Input) : Session :=
  inputs.foldl react s

theorem after_concat (s : Session) (inputs : List Input) (i : Input) :
    s.after (inputs ++ [i]) = (s.after inputs).react i :=
  List.foldl_concat react s i inputs

/-! ## The start, and a new start -/

/-- A session starts with an image that fits, with all keys up, and with a machine that runs. -/
structure Started (s : Session) : Prop where
  fits : s.image.length ≤ 3584
  halted : s.halted = false
  releaseEvents : s.releaseEvents = false
  held : s.held = nothingHeld
  line : s.status = "Running. Space: pause, n: step, x: reset, Tab: debug, q: quit."
  status : s.console.machine.status = .running
  keypad : s.console.machine.keypad = .released

theorem started_of_new {settings : Settings} {image : List UInt8} {entropy : KeyStream}
    {s : Session} (h : Session.new settings image entropy = .ok s) : Started s := by
  unfold Session.new at h
  split at h
  · cases h
  · rename_i c hc
    obtain ⟨-, rfl⟩ := Console.new_eq_ok hc
    split at h
    · cases h
    · rename_i hload
      cases h
      obtain ⟨hfits, memory, rfl⟩ := Console.load_eq_ok hload
      obtain ⟨random, seed, hfresh⟩ := Console.exists_freshMachine settings entropy
      rw [hfresh]
      exact ⟨hfits, rfl, rfl, rfl, rfl, rfl, rfl⟩

/-- Settings that are accepted and an image that fits make a session. -/
theorem exists_new {settings : Settings} {image : List UInt8} (entropy : KeyStream)
    (hs : settings.validate = .ok ()) (hi : image.length ≤ 3584) :
    ∃ s, Session.new settings image entropy = .ok s := by
  obtain ⟨memory, hm⟩ := (Console.freshMachine settings entropy).exists_load hi
  simp only [Session.new, Console.new, hs, Console.load, hm]
  exact ⟨_, rfl⟩

/-- A new session from which something is evaluated has started. -/
theorem exists_new_of_map {settings : Settings} {image : List UInt8} {entropy : KeyStream}
    {α : Type} {f : Session → α} {a : α}
    (h : (Session.new settings image entropy).toOption.map f = some a) :
    ∃ s, Session.new settings image entropy = .ok s ∧ f s = a := by
  obtain ⟨s, hs, ha⟩ := Option.map_eq_some_iff.mp h
  exact ⟨s, eq_ok_of_toOption hs, ha⟩

/-- A reset with an image that fits succeeds. -/
theorem reset_of_le {s : Session} (h : s.image.length ≤ 3584) :
    ∃ memory, s.reset = { s with
      console := s.console.reset.withMachine { s.console.machine.reset with memory }
      halted := false, held := nothingHeld, status := "Reset." } := by
  obtain ⟨memory, hload⟩ := s.console.reset.exists_load h
  refine ⟨memory, ?_⟩
  rw [Session.reset, Console.restart, hload]
  rfl

/-! ## Playing -/

/-- `Played s s'`: a tick or a step of `s` may leave `s'`. -/
inductive Played (s : Session) : Session → Prop where
  | idle : Played s s
  | ran {n : Nat} {m : Machine} {c : Console} {line : String} :
      s.halted = false → s.console.machine.run n = (none, m) →
      c.machine.status = m.status → c.machine.keypad = m.keypad →
      line = s.status ∨ (∃ text, line = "PC=" ++ text) →
      Played s { s with console := c, status := line }
  | faulted {n : Nat} {m : Machine} {c : Console} {e : Fault} :
      s.halted = false → s.console.machine.run n = (none, m) →
      m.cycle = (.error e, c.machine) → Played s ({ s with console := c }.halt e)

theorem tick_played (s : Session) : Played s s.tick := by
  unfold tick
  split
  · exact .idle
  · rename_i hgo
    have hhalted : s.halted = false := by
      cases hh : s.halted with
      | false => rfl
      | true => simp [hh] at hgo
    have hf := s.console.runFrame_framed
    rcases hc : s.console.runFrame with ⟨r, c⟩
    rw [hc] at hf
    cases hf with
    | completed hm => exact .ran hhalted hm rfl rfl (.inl rfl)
    | abandoned hm =>
        obtain ⟨n, -, m, hrun, hfault⟩ := Machine.exists_cycle_of_run hm
        exact .faulted hhalted hrun hfault

theorem step_played (s : Session) : Played s s.step := by
  unfold step
  split
  · exact .idle
  · rename_i hgo
    have hhalted : s.halted = false := Bool.not_eq_true _ ▸ hgo
    rcases hc : s.console.machine.cycle with ⟨e | i, m⟩
    · exact .faulted (n := 0) hhalted rfl hc
    · -- a step is a run of one cycle
      have hrun : s.console.machine.run 1 = (none, m) := by
        rw [Machine.run_succ, hc]
        rfl
      have hline : "PC=" ++ Hex.address s.console.machine.instructionAddress.toNat ++ ": " ++
          i.assembly = "PC=" ++ (Hex.address s.console.machine.instructionAddress.toNat ++
            (": " ++ i.assembly)) := by
        rw [String.append_assoc, String.append_assoc]
      exact .ran hhalted hrun rfl rfl (.inr ⟨_, hline⟩)

/-! ## Every input -/

/-- `Handled s s'`: keys that are pressed, or let go of, turn `s` into `s'`. -/
def Handled (s s' : Session) : Prop :=
  ∃ keypad held, s' = { s with
    console := s.console.withMachine { s.console.machine with keypad }, held }

theorem handled_self (s : Session) : Handled s s :=
  ⟨s.console.machine.keypad, s.held, rfl⟩

theorem Handled.trans {s s₁ s₂ : Session} (h : Handled s s₁) (h' : Handled s₁ s₂) :
    Handled s s₂ := by
  obtain ⟨_, _, rfl⟩ := h
  obtain ⟨keypad, held, rfl⟩ := h'
  exact ⟨keypad, held, rfl⟩

theorem handled_setKey (s : Session) (key : UInt8) (since : Option Nat) (down : Bool) :
    Handled s ((s.setHeld key since).setKey key down) := by
  unfold setKey Console.setKey Machine.setKey setHeld
  cases s.console.machine.keypad.set key down with
  | ok keypad => exact ⟨keypad, _, rfl⟩
  | error e => exact ⟨s.console.machine.keypad, _, rfl⟩

theorem handled_expire (now : Nat) (s : Session) (key : Nat) : Handled s (s.expire now key) := by
  unfold expire
  split
  · split
    · exact s.handled_setKey _ none false
    · exact s.handled_self
  · exact s.handled_self

theorem handled_sweep (now : Nat) (keys : List Nat) (s : Session) :
    Handled s (keys.foldl (Session.expire now) s) := by
  induction keys generalizing s with
  | nil => exact s.handled_self
  | cons key keys ih => exact (handled_expire now s key).trans (ih (s.expire now key))

theorem handled_releaseExpired (s : Session) (now : Nat) : Handled s (s.releaseExpired now) := by
  unfold releaseExpired
  split
  · exact s.handled_self
  · exact handled_sweep now (List.range 16) s

/-- `Reacted s s'`: an input to `s` may leave `s'`. -/
inductive Reacted (s : Session) : Session → Prop where
  | played {paused : Bool} {s' : Session} : Played { s with paused } s' → Reacted s s'
  | reset : Reacted s s.reset
  | handled {s' : Session} {paused showDebug quit releaseEvents : Bool} {line : String} :
      Handled s s' → line ∈ [s.status, "Running.", "Paused."] →
      Reacted s { s' with paused, showDebug, quit, releaseEvents, status := line }

theorem reacted_of_handled {s s' : Session} (h : Handled s s') : Reacted s s' := by
  have hline : s'.status ∈ [s.status, "Running.", "Paused."] := by
    obtain ⟨_, _, rfl⟩ := h
    exact List.mem_cons_self
  exact .handled h hline

theorem togglePause_reacted (s : Session) : Reacted s s.togglePause := by
  refine .handled s.handled_self ?_
  split <;> simp

/-- A command is a pause, a step, a reset, or sets a flag. -/
theorem command_reacted (s : Session) (code : KeyCode) : Reacted s (s.command code) := by
  unfold command
  split
  · exact .handled s.handled_self List.mem_cons_self
  · exact .handled s.handled_self List.mem_cons_self
  · exact s.togglePause_reacted
  · exact .played (step_played _)
  · exact .reset
  · exact .handled s.handled_self List.mem_cons_self
  · exact reacted_of_handled s.handled_self

/-- **There is nothing else that an input does.** -/
theorem react_reacted (s : Session) (i : Input) : Reacted s (s.react i) := by
  cases i with
  | key code event now =>
      rw [react, handleKey]
      split
      · split
        · exact reacted_of_handled (s.handled_setKey _ none false)
        · exact reacted_of_handled (s.handled_setKey _ (some now) true)
      · split
        · exact s.command_reacted code
        · exact reacted_of_handled s.handled_self
  | expire now => exact reacted_of_handled (s.handled_releaseExpired now)
  | reports releases => exact .handled s.handled_self List.mem_cons_self
  | tick =>
      have h : Played { s with paused := s.paused } s.tick := s.tick_played
      exact .played h
  | step =>
      have h : Played { s with paused := s.paused } s.step := s.step_played
      exact .played h
  | pause => exact s.togglePause_reacted
  | reset => exact .reset

end Session

end ChipEight
