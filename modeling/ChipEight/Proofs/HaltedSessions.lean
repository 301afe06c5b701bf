import ChipEight.Proofs.Sessions

/-!
# A session knows whether its machine has faulted

A session that has halted runs its machine no more, so it has to know of every fault,
and of nothing else. `Synced` says that it does: the flag is up exactly if the machine
has faulted. Every input keeps this, since playing raises the flag in the cycle that
faults, and a reset, which always succeeds with the image of the session, takes it down
as it starts the machine again.

Because the flag is right, no cycle is ever asked of a machine that has faulted, and the
line of status never shows the refusal that this would bring (`ShowsNoRefusal`). That no
other line reads like one is a matter of first characters: the refusal is the only fault
whose message starts with a capital C (`Fault.opening_message`), and the lines of a
session that goes on start neither like it nor like the line of a halt.
-/

namespace ChipEight

/-! ## How texts start -/

/-- The first character of a text. -/
def opening (t : String) : Option Char :=
  t.toList.head?

theorem opening_append {s t : String} {c : Char} (h : opening s = some c) :
    opening (s ++ t) = some c := by
  unfold opening at h ⊢
  rw [String.toList_append, List.head?_append, h]
  rfl

/-- The first character of the message of a fault. -/
def Fault.initial : Fault → Char
  | notRunning _ => 'C'
  | invalidOpcode _ _ | fetch _ _ => 'i'
  | stackOverflow _ _ => 'c'
  | stackUnderflow _ _ => 'r'
  | memory _ _ (.outOfRange _ _) => 'm'
  | memory _ _ (.programTooLarge _ _) => 'p'
  | invalidKey _ _ _ => 'k'

theorem Fault.opening_message (e : Fault) : opening e.message = some e.initial := by
  cases e with
  | notRunning status =>
      have h : opening "CPU not running: " = some 'C' := by decide
      exact opening_append h
  | invalidOpcode a w =>
      have h : opening "invalid opcode " = some 'i' := by decide
      exact opening_append (opening_append (opening_append h))
  | stackOverflow a w =>
      have h : opening "call stack overflow" = some 'c' := by decide
      exact opening_append h
  | stackUnderflow a w =>
      have h : opening StackError.underflow.message = some 'r' := by decide
      exact opening_append h
  | memory a w cause =>
      cases cause with
      | outOfRange b len =>
          have h : opening "memory access of " = some 'm' := by decide
          have hcause : opening (MemoryError.outOfRange b len).message = some 'm' :=
            opening_append (opening_append (opening_append (opening_append h)))
          exact opening_append hcause
      | programTooLarge size available =>
          have h : opening "program size " = some 'p' := by decide
          have hcause : opening (MemoryError.programTooLarge size available).message = some 'p' :=
            opening_append (opening_append (opening_append h))
          exact opening_append hcause
  | invalidKey a w key =>
      have h : opening "key " = some 'k' := by decide
      exact opening_append (opening_append (opening_append h))
  | fetch a cause =>
      have h : opening "instruction fetch failed at " = some 'i' := by decide
      exact opening_append (opening_append (opening_append h))

/-- Only a refusal to run reads like one. -/
theorem Fault.eq_notRunning_of_message {e : Fault} {status : Status}
    (h : e.message = (Fault.notRunning status).message) : ∃ status', e = .notRunning status' := by
  have hinitial : some e.initial = some 'C' := by
    rw [← e.opening_message, h, opening_message]
    rfl
  cases e with
  | notRunning status' => exact ⟨status', rfl⟩
  | memory a w cause => cases cause <;> cases hinitial
  | _ => cases hinitial

/-- A line that shows a fault other than a refusal to run, or starts like the lines of a session
that runs or pauses. -/
def ShowsNoRefusal (line : String) : Prop :=
  (∃ e : Fault, (∀ status, e ≠ .notRunning status) ∧ line = "Halted: " ++ e.message) ∨
    opening line = some 'R' ∨ opening line = some 'P'

theorem ShowsNoRefusal.ne {line : String} (h : ShowsNoRefusal line) (status : Status) :
    line ≠ (Fault.notRunning status).message ∧
      line ≠ "Halted: " ++ (Fault.notRunning status).message := by
  have hrefusal : opening (Fault.notRunning status).message = some 'C' :=
    Fault.opening_message (.notRunning status)
  have hhalted : ∀ message, opening ("Halted: " ++ message) = some 'H' := fun message => by
    have hopening : opening "Halted: " = some 'H' := by decide
    exact opening_append hopening
  rcases h with ⟨e, he, rfl⟩ | hline
  · constructor
    · intro heq
      have hopening := hhalted e.message
      rw [heq, hrefusal] at hopening
      cases hopening
    · intro heq
      obtain ⟨status', hstatus⟩ :=
        Fault.eq_notRunning_of_message ((String.append_right_inj _).mp heq)
      exact he status' hstatus
  · constructor <;> rintro rfl
    · rw [hrefusal] at hline
      rcases hline with hline | hline <;> cases hline
    · rw [hhalted] at hline
      rcases hline with hline | hline <;> cases hline

namespace Session

/-! ## The flag and the line -/

/-- A reset would succeed, the session has halted exactly if its machine has faulted, and the line
of status shows no refusal to run. -/
structure Synced (s : Session) : Prop where
  fits : s.image.length ≤ 3584
  halted : s.halted = true ↔ s.console.machine.status = .faulted
  line : ShowsNoRefusal s.status

variable {s s' : Session}

theorem Started.synced (h : Started s) : Synced s where
  fits := h.fits
  halted := by rw [h.halted, h.status]; decide
  line := by
    rw [h.line]
    exact .inr (.inl (by decide))

theorem Synced.not_faulted (h : Synced s) (hs : s.halted = false) :
    s.console.machine.status ≠ .faulted := by
  intro hf
  have hhalted := h.halted.mpr hf
  rw [hs] at hhalted
  cases hhalted

/-- **Playing halts the session exactly if the machine faults**, and shows the fault. -/
theorem Synced.played (h : Synced s) (hp : Played s s') : Synced s' := by
  cases hp with
  | idle => exact h
  | @ran n m c line hs hrun hstatus _ hline =>
      have hm := Machine.not_faulted_of_run (h.not_faulted hs) hrun
      refine ⟨h.fits, ?_, ?_⟩
      · rw [hs, hstatus]
        exact ⟨fun hno => (by cases hno), fun hf => absurd hf hm⟩
      · obtain rfl | ⟨text, rfl⟩ := hline
        · exact h.line
        · have hopening : opening "PC=" = some 'P' := by decide
          exact .inr (.inr (opening_append hopening))
  | @faulted n m c e hs hrun hc =>
      have hm := Machine.not_faulted_of_run (h.not_faulted hs) hrun
      have hcycled := Machine.cycled_of_eq hc
      exact ⟨h.fits, ⟨fun _ => hcycled.faulted, fun _ => rfl⟩,
        .inl ⟨e, hcycled.ne_notRunning hm, rfl⟩⟩

theorem Synced.reset (h : Synced s) : Synced s.reset := by
  obtain ⟨memory, hreset⟩ := reset_of_le h.fits
  have hline : ShowsNoRefusal "Reset." := .inr (.inl (by decide))
  rw [hreset]
  exact ⟨h.fits, ⟨fun hno => (by cases hno), fun hf => (by cases hf)⟩, hline⟩

/-- **Every input leaves the flag right.** -/
theorem Synced.reacted (h : Synced s) (hr : Reacted s s') : Synced s' := by
  cases hr with
  | @played paused s' hp =>
      have hpaused : Synced { s with paused } := ⟨h.fits, h.halted, h.line⟩
      exact hpaused.played hp
  | reset => exact h.reset
  | @handled s₁ _ _ _ _ line hs hline =>
      obtain ⟨keypad, held, rfl⟩ := hs
      have hcases : line = s.status ∨ line = "Running." ∨ line = "Paused." := by
        simpa using hline
      have hshown : ShowsNoRefusal line := by
        obtain rfl | rfl | rfl := hcases
        · exact h.line
        · exact .inr (.inl (by decide))
        · exact .inr (.inr (by decide))
      exact ⟨h.fits, h.halted, hshown⟩

theorem Synced.after (h : Synced s) (inputs : List Input) : Synced (s.after inputs) := by
  induction inputs generalizing s with
  | nil => exact h
  | cons i inputs ih => exact ih (h.reacted (s.react_reacted i))

/-! ## The halt -/

/-- **Only a cycle that faults halts a session**, and the line shows the fault of that cycle. -/
theorem Synced.exists_cycle_of_halted (h : Synced s) (hr : Reacted s s') (hs : s.halted = false)
    (hs' : s'.halted = true) :
    ∃ (n : Nat) (m : Machine) (e : Fault), s.console.machine.run n = (none, m) ∧
      m.status ≠ .faulted ∧ m.cycle = (.error e, s'.console.machine) ∧
      s'.status = "Halted: " ++ e.message := by
  -- whatever leaves the flag as it was did not halt the session
  have hkept : s'.halted ≠ s.halted := by
    rw [hs, hs']
    decide
  cases hr with
  | played hp =>
      cases hp with
      | idle => exact absurd rfl hkept
      | ran => exact absurd rfl hkept
      | @faulted n m c e _ hrun hc =>
          exact ⟨n, m, e, hrun, Machine.not_faulted_of_run (h.not_faulted hs) hrun, hc, rfl⟩
  | reset =>
      obtain ⟨memory, hreset⟩ := reset_of_le h.fits
      rw [hreset] at hs'
      cases hs'
  | handled hh _ =>
      obtain ⟨keypad, held, rfl⟩ := hh
      exact absurd rfl hkept

/--
**The flag of a session and the fault of its machine never drift apart.**

After any inputs to a new session: it has halted exactly if its machine has faulted; a
reset succeeds, and then the session has not halted and its machine runs; and the line of
status shows no refusal to run. An input that halts the session does so in a cycle that
faults a machine which had not faulted before, and puts the fault of that cycle into the
line.
-/
theorem halted_iff_faulted {settings : Settings} {image : List UInt8} {entropy : KeyStream}
    {s₀ : Session} (h : Session.new settings image entropy = .ok s₀) (inputs : List Input) :
    let s := s₀.after inputs
    (s.halted = true ↔ s.console.machine.status = .faulted) ∧
    ((s.console.restart s.image).1 = .ok () ∧ s.reset.status = "Reset." ∧
      s.reset.halted = false ∧ s.reset.console.machine.status = .running) ∧
    (∀ status, s.status ≠ (Fault.notRunning status).message ∧
      s.status ≠ "Halted: " ++ (Fault.notRunning status).message) ∧
    ∀ i, s.halted = false → (s.react i).halted = true →
      ∃ (n : Nat) (m : Machine) (e : Fault), s.console.machine.run n = (none, m) ∧
        m.status ≠ .faulted ∧ m.cycle = (.error e, (s.react i).console.machine) ∧
        (s.react i).status = "Halted: " ++ e.message := by
  intro s
  have hs : Synced s := (started_of_new h).synced.after inputs
  obtain ⟨memory, hreset⟩ := reset_of_le hs.fits
  refine ⟨hs.halted, ⟨Console.restart_of_le hs.fits, ?_⟩, hs.line.ne, fun i hno hyes => ?_⟩
  · rw [hreset]
    exact ⟨rfl, rfl, rfl⟩
  · exact hs.exists_cycle_of_halted (s.react_reacted i) hno hyes

/-- A return without a call halts a session in its first tick. Unpausing it changes the line only,
and a reset starts it again. -/
theorem halted_iff_faulted_return :
    ∃ s₀, Session.new ⟨480, 60, some 7⟩ [0x00, 0xEE] (.ofSeed 0) = .ok s₀ ∧
      (∃ (m : Machine) (e : Fault), m.status ≠ .faulted ∧
        m.cycle = (.error e, (s₀.react .tick).console.machine) ∧
        (s₀.react .tick).status = "Halted: " ++ e.message) ∧
      (s₀.after [.tick, .pause, .pause]).console.machine.status = .faulted ∧
      (s₀.after [.tick, .pause, .pause]).reset.console.machine.status = .running := by
  have hsettings : Settings.validate ⟨480, 60, some 7⟩ = .ok () := rfl
  have himage : List.length [(0x00 : UInt8), 0xEE] ≤ 3584 := by decide
  obtain ⟨s₀, h₀⟩ := exists_new (.ofSeed 0) hsettings himage
  have hhalts : (Session.new ⟨480, 60, some 7⟩ [0x00, 0xEE] (.ofSeed 0)).toOption.map
      (fun s => (s.halted, (s.react .tick).halted, (s.after [.tick, .pause, .pause]).halted)) =
        some (false, true, true) := by decide +kernel
  rw [h₀] at hhalts
  have hflags := Option.some.inj hhalts
  simp only [Prod.mk.injEq] at hflags
  obtain ⟨hgoing, htick, hpauses⟩ := hflags
  obtain ⟨-, -, -, hhalt⟩ := halted_iff_faulted h₀ []
  obtain ⟨_, m, e, -, hm, hc, hline⟩ := hhalt .tick hgoing htick
  obtain ⟨hflag, ⟨-, -, -, hrestarts⟩, -⟩ := halted_iff_faulted h₀ [.tick, .pause, .pause]
  exact ⟨s₀, h₀, ⟨m, e, hm, hc, hline⟩, hflag.mp hpauses, hrestarts⟩

end Session

end ChipEight
