import ChipEight.Player.Session
import ChipEight.Proofs.Restart

/-!
# A failed restart is a reset

A restart resets the console and then loads an image. An image that is too long is
refused, but only then: the reset stands. So a restart that reports an error leaves
the console as it was only if there was nothing to lose, that is, if every part of
it was already as a reset leaves it (`Console.Fresh`). Loading alone looks at the
length first, and a load that fails changes nothing.

A session does not take this into account. After a failed reset it keeps what it
knew of the console before, so a session that has halted goes on to say so although
its machine runs again, and the keys it holds are up.
-/

namespace ChipEight

namespace Console

/-- Everything in the console is as a reset leaves it. -/
structure Fresh (c : Console) : Prop where
  registers : c.machine.registers = .powerOn
  memory : c.machine.memory = .powerOn
  screen : c.machine.screen = .blank
  keypad : c.machine.keypad = .released
  random : c.machine.random = c.machine.resetRandom
  status : c.machine.status = .running
  cycles : c.machine.cycles = 0
  lastInstruction : c.machine.lastInstruction = none
  frames : c.frames = 0
  carry : c.carry = 0

theorem fresh_reset (c : Console) : c.reset.Fresh where
  registers := rfl
  memory := rfl
  screen := rfl
  keypad := rfl
  random := by
    simp only [reset, Machine.reset, Machine.powerOn, Machine.resetRandom]
    split <;> rfl
  status := rfl
  cycles := rfl
  lastInstruction := rfl
  frames := rfl
  carry := rfl

/-- A reset changes nothing exactly if there is nothing to lose. -/
theorem reset_eq_self_iff (c : Console) : c.reset = c ↔ c.Fresh := by
  constructor
  · intro h
    exact h ▸ c.fresh_reset
  · rintro ⟨hr, hm, hs, hk, hd, ht, hc, hl, hf, hy⟩
    rcases c with ⟨⟨_, _, _, _, _, seed, _, _, _⟩, settings, _, _⟩
    subst hr hm hs hk ht hc hl hf hy
    simp only [reset, Machine.reset, Machine.powerOn, ← hd]

/-! ## The order of a restart -/

variable {c : Console} {image : List UInt8}

theorem restart_of_le (h : image.length ≤ 3584) : (c.restart image).1 = .ok () := by
  obtain ⟨memory, hload⟩ := c.reset.exists_load h
  rw [restart, hload]

theorem restart_of_lt (h : 3584 < image.length) :
    c.restart image = (.error (.programTooLarge image.length 3584), c.reset) :=
  c.reset.load_of_lt h

theorem serve_load_of_lt (h : 3584 < image.length) :
    c.serve (.load image) = (.loaded (.error (.programTooLarge image.length 3584)), c) := by
  rw [serve, c.load_of_lt h]

/-- **A restart fails exactly for an image that is too long**, and says how long it is. -/
theorem restart_eq_error_iff (e : MemoryError) :
    (c.restart image).1 = .error e ↔
      3584 < image.length ∧ e = .programTooLarge image.length 3584 := by
  rcases Nat.lt_or_ge 3584 image.length with hlt | hle
  · rw [restart_of_lt hlt, Except.error.injEq]
    exact ⟨fun he => ⟨hlt, he.symm⟩, fun he => he.2.symm⟩
  · rw [restart_of_le hle]
    constructor
    · intro he
      cases he
    · rintro ⟨hlt, -⟩
      exact absurd hlt (Nat.not_lt.mpr hle)

end Console

/-- A session whose reset fails has its console reset, and is otherwise as it was but for the
status. -/
theorem Session.reset_of_lt {s : Session} (h : 3584 < s.image.length) :
    s.reset = { s with
      console := s.console.reset
      status :=
        "Reset failed: " ++ (MemoryError.programTooLarge s.image.length 3584).message } := by
  rw [Session.reset, Console.restart_of_lt h]

/-- **A failed restart resets the console all the same.** It fails exactly for an image of more
than 3584 bytes. Loading such an image changes nothing, but a restart with it leaves the console as
it was exactly if there was nothing to lose. For a session the same holds of a failed reset, which
keeps all but console and status; so what it says about having halted is right afterwards exactly
if it says no. -/
theorem failed_restart_resets (c : Console) (image : List UInt8) (s : Session) :
    (∀ e, (c.restart image).1 = .error e ↔
      3584 < image.length ∧ e = .programTooLarge image.length 3584) ∧
    (3584 < image.length →
      (c.serve (.load image)).2 = c ∧ (c.restart image).2 = c.reset ∧
        ((c.restart image).2 = c ↔ c.Fresh)) ∧
    (3584 < s.image.length →
      s.reset = { s with
        console := s.console.reset
        status :=
          "Reset failed: " ++ (MemoryError.programTooLarge s.image.length 3584).message } ∧
      (s.reset.console = s.console ↔ s.console.Fresh) ∧
      ((s.reset.halted = true ↔ s.reset.console.machine.status = .faulted) ↔
        s.halted = false)) := by
  refine ⟨Console.restart_eq_error_iff, fun h => ?_, fun h => ?_⟩
  · rw [Console.serve_load_of_lt h, Console.restart_of_lt h]
    exact ⟨rfl, rfl, c.reset_eq_self_iff⟩
  · rw [Session.reset_of_lt h]
    refine ⟨rfl, s.console.reset_eq_self_iff, ?_⟩
    -- the machine runs after the reset, whatever it did before
    have hrunning : s.console.reset.machine.status ≠ .faulted := by
      rw [s.console.fresh_reset.status]
      decide
    simp [hrunning]

/-- A session that has halted, on a return with no call, and is then given an image that is too
long. -/
def haltedSession : Session :=
  let image : List UInt8 := [0x00, 0xEE]
  let c : Console :=
    { machine := .ofSeed 7, settings := ⟨480, 60, some 7⟩, frames := 0, carry := 0 }
  let s : Session :=
    { console := (c.serve (.load image)).2, image, paused := false, halted := false,
      showDebug := true, quit := false, status := "", releaseEvents := false,
      held := Session.nothingHeld }
  { s.tick with image := List.replicate 3585 0 }

theorem haltedSession_halted :
    haltedSession.halted = true ∧ haltedSession.console.machine.status = .faulted := by
  decide +kernel

theorem haltedSession_image : haltedSession.image.length = 3585 :=
  List.length_replicate

/-- The reset of such a session fails, and it still says that it has halted. -/
theorem failed_restart_resets_halted :
    3584 < haltedSession.image.length ∧ haltedSession.halted = true ∧
      haltedSession.reset.console ≠ haltedSession.console ∧
      ¬(haltedSession.reset.halted = true ↔
        haltedSession.reset.console.machine.status = .faulted) := by
  obtain ⟨hhalted, hstatus⟩ := haltedSession_halted
  have hi : 3584 < haltedSession.image.length := by
    rw [haltedSession_image]
    decide
  obtain ⟨-, -, hreset⟩ :=
    failed_restart_resets haltedSession.console haltedSession.image haltedSession
  obtain ⟨-, hfresh, hhalt⟩ := hreset hi
  refine ⟨hi, hhalted, fun h => ?_, fun h => ?_⟩
  · -- a machine that has faulted is not as a reset leaves it
    have hrunning := (hfresh.mp h).status
    rw [hstatus] at hrunning
    cases hrunning
  · rw [hhalt.mp h] at hhalted
    cases hhalted

/-- A restart that fails after one cycle takes the cycle back, and a session that has halted goes on
to say so although its machine runs. -/
theorem failed_restart_loses :
    let c₀ : Console :=
      { machine := .ofSeed 7, settings := ⟨480, 60, some 7⟩, frames := 0, carry := 0 }
    let c := (answersTo Console.serve c₀ [.load [0x60, 0x05], .machine (.event .cycle)]).2
    let image : List UInt8 := List.replicate 3585 0
    ((c.restart image).1 = .error (.programTooLarge 3585 3584) ∧ (c.restart image).2 ≠ c) ∧
      haltedSession.halted = true ∧ haltedSession.console.machine.status = .faulted ∧
      haltedSession.reset.status =
        "Reset failed: program size 3585 exceeds available space 3584" ∧
      haltedSession.reset.halted = true ∧
      haltedSession.reset.console.machine.status = .running := by
  intro c₀ c image
  obtain ⟨hhalted, hstatus⟩ := haltedSession_halted
  have hlength : image.length = 3585 := List.length_replicate
  have hi : 3584 < image.length := by omega
  have hs : 3584 < haltedSession.image.length := by
    rw [haltedSession_image]
    decide
  have hcycles : c.machine.cycles = 1 := by decide +kernel
  rw [Console.restart_of_lt hi, hlength, Session.reset_of_lt hs, haltedSession_image]
  dsimp only
  refine ⟨⟨rfl, fun h => ?_⟩, hhalted, hstatus, by decide +kernel, hhalted,
    haltedSession.console.fresh_reset.status⟩
  have hzero := ((c.reset_eq_self_iff).mp h).cycles
  rw [hcycles] at hzero
  cases hzero

end ChipEight
