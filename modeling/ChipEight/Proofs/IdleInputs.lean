import ChipEight.Proofs.Sessions

/-!
# Inputs that the game does not notice

Some inputs only concern what is shown, and some concern nothing at all: the tabulator
and the keys that end the session, releases and repetitions of commands, events of keys
that mean nothing, and ticks of a session that stands still (`Idle`). A pause that is over
before anything but such inputs has happened is no more than a wait. This module proves
that all of them may be left out of any inputs, at any places and together (`Trimmed`):
the console, the keys that are held and the flags end up as they would have.

The two runs do not end up equal, for the line of status and the debugger may differ, and
one session may be about to end. So they are compared up to these (`SamePlay`). No input
reads them, hence every input keeps two sessions alike; and an idle input leaves a session
that is like the one before it.
-/

namespace ChipEight.Session

/-! ## Sessions that play alike -/

/-- `s'` plays as `s` does: they differ in what is shown, and in whether they are to end. -/
def SamePlay (s s' : Session) : Prop :=
  ∃ showDebug quit status, s' = { s with showDebug, quit, status }

section

variable {s s' s'' : Session}

theorem SamePlay.refl (s : Session) : SamePlay s s :=
  ⟨_, _, _, rfl⟩

theorem SamePlay.symm (h : SamePlay s s') : SamePlay s' s := by
  obtain ⟨_, _, _, rfl⟩ := h
  exact ⟨_, _, _, rfl⟩

theorem SamePlay.trans (h : SamePlay s s') (h' : SamePlay s' s'') : SamePlay s s'' := by
  obtain ⟨_, _, _, rfl⟩ := h
  obtain ⟨_, _, _, rfl⟩ := h'
  exact ⟨_, _, _, rfl⟩

theorem SamePlay.tick (h : SamePlay s s') : SamePlay s.tick s'.tick := by
  obtain ⟨_, _, _, rfl⟩ := h
  unfold Session.tick
  dsimp only
  split
  · exact ⟨_, _, _, rfl⟩
  · split <;> exact ⟨_, _, _, rfl⟩

theorem SamePlay.step (h : SamePlay s s') : SamePlay s.step s'.step := by
  obtain ⟨_, _, _, rfl⟩ := h
  unfold Session.step
  dsimp only
  split
  · exact ⟨_, _, _, rfl⟩
  · split <;> exact ⟨_, _, _, rfl⟩

theorem SamePlay.togglePause (h : SamePlay s s') : SamePlay s.togglePause s'.togglePause := by
  obtain ⟨_, _, _, rfl⟩ := h
  exact ⟨_, _, _, rfl⟩

theorem SamePlay.reset (h : SamePlay s s') : SamePlay s.reset s'.reset := by
  obtain ⟨_, _, _, rfl⟩ := h
  unfold Session.reset
  dsimp only
  split <;> exact ⟨_, _, _, rfl⟩

theorem SamePlay.setKey (h : SamePlay s s') (key : UInt8) (since : Option Nat) (down : Bool) :
    SamePlay ((s.setHeld key since).setKey key down) ((s'.setHeld key since).setKey key down) := by
  obtain ⟨_, _, _, rfl⟩ := h
  unfold Session.setKey Session.setHeld
  dsimp only
  split <;> exact ⟨_, _, _, rfl⟩

theorem SamePlay.expire (h : SamePlay s s') (now key : Nat) :
    SamePlay (s.expire now key) (s'.expire now key) := by
  have hheld : s'.held = s.held := by
    obtain ⟨_, _, _, rfl⟩ := h
    rfl
  unfold Session.expire
  rw [hheld]
  split
  · split
    · exact h.setKey _ none false
    · exact h
  · exact h

theorem SamePlay.sweep (h : SamePlay s s') (now : Nat) (keys : List Nat) :
    SamePlay (keys.foldl (Session.expire now) s) (keys.foldl (Session.expire now) s') := by
  induction keys generalizing s s' with
  | nil => exact h
  | cons key keys ih => exact ih (h.expire now key)

theorem SamePlay.releaseExpired (h : SamePlay s s') (now : Nat) :
    SamePlay (s.releaseExpired now) (s'.releaseExpired now) := by
  have hreports : s'.releaseEvents = s.releaseEvents := by
    obtain ⟨_, _, _, rfl⟩ := h
    rfl
  unfold Session.releaseExpired
  rw [hreports]
  split
  · exact h
  · exact h.sweep now (List.range 16)

theorem SamePlay.command (h : SamePlay s s') (code : KeyCode) :
    SamePlay (s.command code) (s'.command code) := by
  unfold Session.command
  split
  · obtain ⟨_, _, _, rfl⟩ := h
    exact ⟨_, _, _, rfl⟩
  · obtain ⟨_, _, _, rfl⟩ := h
    exact ⟨_, _, _, rfl⟩
  · exact h.togglePause
  · refine SamePlay.step ?_
    obtain ⟨_, _, _, rfl⟩ := h
    exact ⟨_, _, _, rfl⟩
  · exact h.reset
  · obtain ⟨_, _, _, rfl⟩ := h
    exact ⟨_, _, _, rfl⟩
  · exact h

theorem SamePlay.handleKey (h : SamePlay s s') (code : KeyCode) (event : KeyEvent) (now : Nat) :
    SamePlay (s.handleKey code event now) (s'.handleKey code event now) := by
  unfold Session.handleKey
  split
  · split
    · exact h.setKey _ none false
    · exact h.setKey _ (some now) true
  · split
    · exact h.command code
    · exact h

/-- **No input reads what is shown.** -/
theorem SamePlay.react (h : SamePlay s s') (i : Input) : SamePlay (s.react i) (s'.react i) := by
  cases i with
  | key code event now => exact h.handleKey code event now
  | expire now => exact h.releaseExpired now
  | reports releases =>
      obtain ⟨_, _, _, rfl⟩ := h
      exact ⟨_, _, _, rfl⟩
  | tick => exact h.tick
  | step => exact h.step
  | pause => exact h.togglePause
  | reset => exact h.reset

end

/-! ## Idle inputs -/

/-- A key of the keyboard that stands neither for a key of the keypad nor for a command. -/
def Meaningless (code : KeyCode) : Prop :=
  keypadKey? code = none ∧
    code ∉ [.char 'q', .escape, .char ' ', .char 'n', .char 'x', .tab]

/-- The game does not notice the input. -/
inductive Idle (s : Session) : Input → Prop where
  | tab (now : Nat) : Idle s (.key .tab .press now)
  | escape (now : Nat) : Idle s (.key .escape .press now)
  | quit (now : Nat) : Idle s (.key (.char 'q') .press now)
  /-- Commands are given by presses alone. -/
  | notPressed {code : KeyCode} {event : KeyEvent} (now : Nat) :
      keypadKey? code = none → event ≠ .press → Idle s (.key code event now)
  | meaningless {code : KeyCode} (event : KeyEvent) (now : Nat) :
      Meaningless code → Idle s (.key code event now)
  /-- A session that is paused or has halted stands still. -/
  | still : (s.paused || s.halted) = true → Idle s .tick

theorem command_of_meaningless {code : KeyCode} (h : Meaningless code) (s : Session) :
    s.command code = s := by
  obtain ⟨-, hcode⟩ := h
  unfold command
  split
  case h_7 => rfl
  all_goals simp at hcode

/-- An event of a key that is not on the keypad. -/
theorem handleKey_of_none {code : KeyCode} (h : keypadKey? code = none) (s : Session)
    (event : KeyEvent) (now : Nat) :
    s.handleKey code event now = if event = .press then s.command code else s := by
  rw [handleKey, h]

theorem samePlay_of_idle {s : Session} {i : Input} (h : Idle s i) : SamePlay s (s.react i) := by
  cases h with
  | tab now => exact ⟨_, _, _, rfl⟩
  | escape now => exact ⟨_, _, _, rfl⟩
  | quit now =>
      rw [react, handleKey_of_none (by decide)]
      exact ⟨_, _, _, rfl⟩
  | notPressed now hcode hevent =>
      rw [react, handleKey_of_none hcode, if_neg hevent]
      exact .refl s
  | meaningless event now hcode =>
      rw [react, handleKey_of_none hcode.1, command_of_meaningless hcode, ite_self]
      exact .refl s
  | still hstill =>
      rw [react, tick, if_pos hstill]
      exact .refl s

/-! ## A pause in which nothing happens -/

/-- The space bar goes down. -/
def space (now : Nat) : Input :=
  .key (.char ' ') .press now

theorem react_space (s : Session) (now : Nat) : s.react (space now) = s.togglePause := by
  rw [space, react, handleKey_of_none (by decide)]
  rfl

theorem SamePlay.flags {s s' : Session} (h : SamePlay s s') :
    s'.paused = s.paused ∧ s'.halted = s.halted := by
  obtain ⟨_, _, _, rfl⟩ := h
  exact ⟨rfl, rfl⟩

/-- What is idle in one session is so in a paused one. -/
theorem Idle.of_paused {s s' : Session} {i : Input} (h : i = .tick ∨ Idle s i)
    (hpaused : s'.paused = true) : Idle s' i := by
  have hstill : (s'.paused || s'.halted) = true := by rw [hpaused, Bool.true_or]
  rcases h with rfl | h
  · exact .still hstill
  · cases h with
    | tab now => exact .tab now
    | escape now => exact .escape now
    | quit now => exact .quit now
    | notPressed now hcode hevent => exact .notPressed now hcode hevent
    | meaningless event now hcode => exact .meaningless event now hcode
    | still => exact .still hstill

theorem samePlay_wait {s₀ s : Session} {wait : List Input} (hpaused : s.paused = true)
    (h : ∀ i ∈ wait, i = .tick ∨ Idle s₀ i) : SamePlay s (s.after wait) := by
  induction wait generalizing s with
  | nil => exact .refl s
  | cons i wait ih =>
      have hsame := samePlay_of_idle (Idle.of_paused (h i List.mem_cons_self) hpaused)
      have hpaused' : (s.react i).paused = true := hsame.flags.1.trans hpaused
      exact hsame.trans (ih hpaused' fun i' hi' => h i' (List.mem_cons_of_mem i hi'))

/-- **A pause that ends before anything else happens is not noticed.** -/
theorem samePlay_pause {s : Session} {wait : List Input} (t t' : Nat) (hgoing : s.paused = false)
    (h : ∀ i ∈ wait, i = .tick ∨ Idle s i) :
    SamePlay s (s.after (space t :: (wait ++ [space t']))) := by
  have hpaused : s.togglePause.paused = true := by
    rw [togglePause, hgoing]
    rfl
  have hwait := (samePlay_wait hpaused h).togglePause
  have htwice : SamePlay s s.togglePause.togglePause := by
    refine ⟨s.showDebug, s.quit, s.togglePause.togglePause.status, ?_⟩
    unfold togglePause
    rw [Bool.not_not]
  have hafter : s.after (space t :: (wait ++ [space t'])) =
      (s.togglePause.after wait).togglePause := by
    rw [after, List.foldl_cons, react_space, ← after, after_concat, react_space]
  rw [hafter]
  exact htwice.trans hwait

/-! ## Leaving inputs out -/

/-- `Trimmed s inputs kept`: from inputs to `s`, some that the game does not notice are left out,
and `kept` remain. -/
inductive Trimmed : Session → List Input → List Input → Prop where
  | nil {s : Session} : Trimmed s [] []
  | keep {s : Session} {i : Input} {inputs kept : List Input} :
      Trimmed (s.react i) inputs kept → Trimmed s (i :: inputs) (i :: kept)
  | idle {s : Session} {i : Input} {inputs kept : List Input} :
      Idle s i → Trimmed (s.react i) inputs kept → Trimmed s (i :: inputs) kept
  /-- A press of the space bar that pauses, ticks or idle inputs, and the next press. -/
  | pause {s : Session} {t t' : Nat} {wait inputs kept : List Input} :
      s.paused = false → (∀ i ∈ wait, i = .tick ∨ Idle s i) →
      Trimmed (s.after (space t :: (wait ++ [space t']))) inputs kept →
      Trimmed s (space t :: (wait ++ [space t']) ++ inputs) kept

theorem SamePlay.after_trimmed {s s' : Session} {inputs kept : List Input}
    (ht : Trimmed s inputs kept) (h : SamePlay s s') :
    SamePlay (s.after inputs) (s'.after kept) := by
  induction ht generalizing s' with
  | nil => exact h
  | keep _ ih => exact ih (h.react _)
  | idle hidle _ ih => exact ih ((samePlay_of_idle hidle).symm.trans h)
  | pause hgoing hwait _ ih =>
      rw [after, List.foldl_append]
      exact ih ((samePlay_pause _ _ hgoing hwait).symm.trans h)

/--
**Inputs that only concern what is shown never disturb the machine.**

Out of any inputs to a session, leave out some of these: presses of the tabulator, of
escape and of the key that quits; releases and repetitions of keys that are not on the
keypad; all events of keys that mean nothing; ticks while the session is paused or has
halted; and pauses that end before anything but ticks and such inputs has happened. Then
the console, the keys held and both flags end up the same.
-/
theorem idle_inputs_unnoticed {s : Session} {inputs kept : List Input}
    (h : Trimmed s inputs kept) :
    (s.after kept).console = (s.after inputs).console ∧
    (s.after kept).held = (s.after inputs).held ∧
    (s.after kept).paused = (s.after inputs).paused ∧
    (s.after kept).halted = (s.after inputs).halted := by
  obtain ⟨_, _, _, hsame⟩ := SamePlay.after_trimmed h (.refl s)
  rw [hsame]
  exact ⟨rfl, rfl, rfl, rfl⟩

/-- Of ten inputs to a session, among them a pause and a tick after the machine has faulted, a key
and a tick are enough to halt it with the key down. -/
theorem idle_inputs_unnoticed_fault :
    let inputs : List Input := [.key .tab .press 0, .key (.char 'u') .press 10, space 20, .tick,
      .key (.char 'q') .press 30, space 40, .key (.char 'n') .again 50,
      .key (.char 'Q') .press 60, .tick, .tick]
    let kept : List Input := [.key (.char 'u') .press 10, .tick]
    ∃ s₀, Session.new ⟨480, 60, some 7⟩ [0x00, 0xEE] (.ofSeed 0) = .ok s₀ ∧
      Trimmed s₀ inputs kept ∧
      (s₀.after inputs).halted = true ∧ (s₀.after inputs).held[4]?.getD none = some 10 := by
  intro inputs kept
  have hsettings : Settings.validate ⟨480, 60, some 7⟩ = .ok () := rfl
  have himage : List.length [(0x00 : UInt8), 0xEE] ≤ 3584 := by decide
  obtain ⟨s₀, h₀⟩ := exists_new (.ofSeed 0) hsettings himage
  have hrun : (Session.new ⟨480, 60, some 7⟩ [0x00, 0xEE] (.ofSeed 0)).toOption.map
      (fun s => ((s.after (inputs.take 2)).paused, (s.after (inputs.take 9)).halted,
        (s.after kept).halted, (s.after kept).held[4]?.getD none)) =
        some (false, true, true, some 10) := by decide +kernel
  rw [h₀] at hrun
  have hflags := Option.some.inj hrun
  simp only [Prod.mk.injEq] at hflags
  obtain ⟨hgoing, hstopped, hhalted, hheld⟩ := hflags
  have hwait : ∀ i ∈ [.tick, .key (.char 'q') .press 30],
      i = .tick ∨ Idle (s₀.after (inputs.take 2)) i := by
    intro i hi
    rcases List.mem_pair.mp hi with rfl | rfl
    · exact .inl rfl
    · exact .inr (.quit 30)
  have htrimmed : Trimmed s₀ inputs kept := by
    refine .idle (.tab 0) (.keep (.pause hgoing hwait ?_))
    refine .idle (.notPressed 50 (by decide) (by decide)) ?_
    refine .idle (.meaningless .press 60 ⟨by decide, by decide⟩) (.keep ?_)
    refine .idle (.still ?_) .nil
    rw [Bool.or_eq_true]
    exact .inr hstopped
  obtain ⟨-, hheld', -, hhalted'⟩ := idle_inputs_unnoticed htrimmed
  rw [hhalted] at hhalted'
  rw [hheld'] at hheld
  exact ⟨s₀, h₀, htrimmed, hhalted'.symm, hheld⟩

end ChipEight.Session
