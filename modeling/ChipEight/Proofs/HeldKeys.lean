import ChipEight.Proofs.Sessions

/-!
# Which keys are down

A session keeps two accounts of its keys: when each key that is held was last
pressed, and which keys of the keypad are down. This module says what both show after
any inputs, in terms of the inputs alone. A key is down exactly if it was pressed and
nothing since its last press has let go of it (`HeldSince`): a release, a reset, or a
sweep that comes late enough, at a terminal that does not report releases.

Both accounts are changed together, by `touch`, so they always agree (`Matched`). And
what one input does to a key is one equation, `KeyStep.since`. The history has the same
equation, `heldSince_concat`, so the two go together by induction from the last input.
-/

namespace ChipEight

/-- Whether a key of the keyboard stands for key `k`. -/
def KeyCode.means (code : KeyCode) (k : Nat) : Bool :=
  (Session.keypadKey? code).any fun key => key.toNat = k

namespace Input

/-! ## The history of a key -/

/-- When an input presses key `k`, or reports again that it is down: the time that it gives. -/
def pressed? (k : Nat) : Input → Option Nat
  | key code event now => if code.means k && event ≠ .release then some now else none
  | _ => none

/-- Whether an input lets go of key `k`, last pressed at `since`. A sweep does so when the terminal
does not report releases and the key was pressed long enough ago. -/
def letsGo (k since : Nat) (reporting : Bool) : Input → Bool
  | key code event _ => code.means k && event = .release || code = .char 'x' && event = .press
  | expire now => !reporting && Session.hold ≤ now - since
  | reset => true
  | _ => false

/-- Whether the terminal reports releases after an input, if it did or did not before. -/
def reportingAfter (before : Bool) : Input → Bool
  | reports releases => releases
  | _ => before

/-- Whether the terminal reports releases, after inputs. At the start it does not. -/
def reporting (inputs : List Input) : Bool :=
  inputs.foldl reportingAfter false

/-- Key `k` was last pressed at `t`, and nothing has let go of it since. -/
def HeldSince (k t : Nat) (inputs : List Input) : Prop :=
  ∃ (j : Nat) (i : Input), inputs[j]? = some i ∧ i.pressed? k = some t ∧
    ∀ (j' : Nat) (i' : Input), j < j' → inputs[j']? = some i' →
      i'.pressed? k = none ∧ i'.letsGo k t (reporting (inputs.take j')) = false

/-- **One more input either presses the key, or lets go of it, or leaves it as it was.** -/
theorem heldSince_concat {k t : Nat} {inputs : List Input} {i : Input} :
    HeldSince k t (inputs ++ [i]) ↔
      i.pressed? k = some t ∨
        i.pressed? k = none ∧ i.letsGo k t (reporting inputs) = false ∧ HeldSince k t inputs := by
  constructor
  · rintro ⟨j, i₀, hj, hpress, hlater⟩
    rcases getElem?_concat_cases hj with ⟨hlt, hj⟩ | ⟨-, rfl⟩
    · right
      obtain ⟨hnone, hkept⟩ := hlater inputs.length i hlt List.getElem?_concat_length
      rw [List.take_left] at hkept
      refine ⟨hnone, hkept, j, i₀, hj, hpress, fun j' i' hjj hj' => ?_⟩
      have hlt' : j' < inputs.length := (List.getElem?_eq_some_iff.mp hj').1
      have hnext := hlater j' i' hjj ((List.getElem?_append_left hlt').trans hj')
      rwa [List.take_append_of_le_length (Nat.le_of_lt hlt')] at hnext
    · exact .inl hpress
  · rintro (hpress | ⟨hnone, hkept, j, i₀, hj, hpress, hlater⟩)
    · refine ⟨inputs.length, i, List.getElem?_concat_length, hpress, fun j' i' hlt hj' => ?_⟩
      -- nothing comes after the last input
      rcases getElem?_concat_cases hj' with ⟨hlt', -⟩ | ⟨rfl, -⟩ <;> omega
    · have hlt : j < inputs.length := (List.getElem?_eq_some_iff.mp hj).1
      refine ⟨j, i₀, (List.getElem?_append_left hlt).trans hj, hpress, fun j' i' hjj hj' => ?_⟩
      rcases getElem?_concat_cases hj' with ⟨hlt', hj'⟩ | ⟨rfl, rfl⟩
      · rw [List.take_append_of_le_length (Nat.le_of_lt hlt')]
        exact hlater j' i' hjj hj'
      · rw [List.take_left]
        exact ⟨hnone, hkept⟩

end Input

/-! ## The keyboard -/

theorem Keyboard.key?_lt {c : Char} {key : UInt8} (h : key? c = some key) : key.toNat < 16 := by
  unfold key? at h
  obtain ⟨b, hb, rfl⟩ := Option.map_eq_some_iff.mp h
  have hall : ∀ b ∈ bindings, b.2.toNat < 16 := by decide
  exact hall b (List.mem_of_find?_eq_some hb)

namespace Session

theorem keypadKey?_lt {code : KeyCode} {key : UInt8} (h : keypadKey? code = some key) :
    key.toNat < 16 := by
  cases code with
  | char c => exact Keyboard.key?_lt h
  | _ => cases h

/-! ## The two accounts -/

/-- When key `k` was last pressed, if it is held. -/
def since? (s : Session) (k : Nat) : Option Nat :=
  s.held[k]?.getD none

/-- Whether key `k` of the keypad is down. -/
def isDown (s : Session) (k : Nat) : Bool :=
  s.console.machine.keypad.isDown k

/-- The accounts of the keys agree, and a reset would succeed. -/
structure Matched (s : Session) : Prop where
  fits : s.image.length ≤ 3584
  down : ∀ k, s.isDown k = (s.since? k).isSome

/-- The session with a key down since some time, or up. -/
def touch (s : Session) (key : UInt8) (since : Option Nat) : Session :=
  (s.setHeld key since).setKey key since.isSome

/-- `s'` has the same keys as `s`. -/
structure SameKeys (s s' : Session) : Prop where
  held : s'.held = s.held
  keypad : s'.console.machine.keypad = s.console.machine.keypad
  releaseEvents : s'.releaseEvents = s.releaseEvents
  image : s'.image = s.image

theorem SameKeys.since? {s s' : Session} (h : SameKeys s s') (k : Nat) : s'.since? k = s.since? k := by
  rw [Session.since?, h.held, Session.since?]

theorem SameKeys.matched {s s' : Session} (h : SameKeys s s') (hs : s.Matched) : s'.Matched where
  fits := by rw [h.image]; exact hs.fits
  down k := by rw [isDown, h.keypad, h.since?]; exact hs.down k

theorem Played.sameKeys {s s' : Session} (h : Played s s') : SameKeys s s' := by
  cases h with
  | idle => exact ⟨rfl, rfl, rfl, rfl⟩
  | ran _ hrun _ hk => exact ⟨rfl, hk.trans (Machine.keypad_run hrun), rfl, rfl⟩
  | faulted _ hrun hc =>
      have hk := Machine.keypad_cycled (Machine.cycled_of_eq hc)
      exact ⟨rfl, hk.trans (Machine.keypad_run hrun), rfl, rfl⟩

/-- Of the commands only a reset touches the keys. -/
theorem command_sameKeys {s : Session} {code : KeyCode} (h : code ≠ .char 'x') :
    SameKeys s (s.command code) := by
  unfold command
  split
  · exact ⟨rfl, rfl, rfl, rfl⟩
  · exact ⟨rfl, rfl, rfl, rfl⟩
  · exact ⟨rfl, rfl, rfl, rfl⟩
  · have hstep := (step_played { s with paused := true }).sameKeys
    exact ⟨hstep.held, hstep.keypad, hstep.releaseEvents, hstep.image⟩
  · exact absurd rfl h
  · exact ⟨rfl, rfl, rfl, rfl⟩
  · exact ⟨rfl, rfl, rfl, rfl⟩

/-! ## One key -/

section

variable {s : Session} {key : UInt8} (hkey : key.toNat < 16) (since : Option Nat)

include hkey

theorem touch_eq : s.touch key since = { s with
    console := s.console.withMachine { s.console.machine with
      keypad := ⟨s.console.machine.keypad.down.setIfInBounds key.toNat since.isSome⟩ }
    held := s.held.setIfInBounds key.toNat since } := by
  simp only [touch, setKey, Console.setKey, Machine.setKey, setHeld, Keypad.set, if_pos hkey]

theorem since?_touch (k : Nat) :
    (s.touch key since).since? k = if k = key.toNat then since else s.since? k := by
  rw [touch_eq hkey, since?, since?]
  by_cases hk : k = key.toNat
  · subst hk
    simp [hkey]
  · simp [hk, Ne.symm hk]

theorem isDown_touch (k : Nat) :
    (s.touch key since).isDown k = if k = key.toNat then since.isSome else s.isDown k := by
  have hset : s.console.machine.keypad.set key since.isSome = .ok _ := if_pos hkey
  rw [touch_eq hkey]
  exact Keypad.isDown_set hset k

theorem Matched.touch (hs : s.Matched) : (s.touch key since).Matched := by
  refine ⟨?_, fun k => ?_⟩
  · rw [touch_eq hkey]
    exact hs.fits
  · rw [isDown_touch hkey, since?_touch hkey, hs.down]
    split <;> rfl

end

/-! ## A sweep -/

/-- Whether a sweep lets go of a key that was pressed at some time. -/
def overdue (now since : Nat) : Bool :=
  hold ≤ now - since

/-- A sweep that comes to a key lets go of it exactly if it is overdue. -/
theorem expire_cases (s : Session) (now key : Nat) :
    (∃ since, s.since? key = some since ∧ overdue now since = true ∧
      s.expire now key = s.touch (UInt8.ofNat key) none) ∨
    (∀ since, s.since? key = some since → overdue now since = false) ∧ s.expire now key = s := by
  have hheld : s.held[key]?.getD none = s.since? key := rfl
  rw [expire, hheld]
  cases hs : s.since? key with
  | none =>
      right
      refine ⟨fun since h => ?_, rfl⟩
      cases h
  | some since =>
      by_cases hold : overdue now since = true
      · left
        exact ⟨since, rfl, hold, if_pos (of_decide_eq_true hold)⟩
      · right
        refine ⟨fun since' h => ?_, if_neg fun hle => hold (decide_eq_true hle)⟩
        cases h
        exact Bool.not_eq_true _ ▸ hold

theorem toNat_key {key : Nat} (h : key < 16) : (UInt8.ofNat key).toNat = key := by
  rw [UInt8.toNat_ofNat']
  omega

theorem since?_expire {s : Session} {now key : Nat} (hkey : key < 16) (k t : Nat) :
    (s.expire now key).since? k = some t ↔
      s.since? k = some t ∧ ¬(k = key ∧ overdue now t = true) := by
  rcases s.expire_cases now key with ⟨since, hs, hover, he⟩ | ⟨hkept, he⟩
  · have hlt : (UInt8.ofNat key).toNat < 16 := (toNat_key hkey).symm ▸ hkey
    rw [he, since?_touch hlt, toNat_key hkey]
    by_cases hk : k = key
    · subst hk
      rw [if_pos rfl, hs]
      constructor
      · intro h
        cases h
      · rintro ⟨h, hnot⟩
        cases h
        exact absurd ⟨rfl, hover⟩ hnot
    · rw [if_neg hk]
      exact ⟨fun h => ⟨h, fun hand => hk hand.1⟩, fun h => h.1⟩
  · rw [he]
    refine ⟨fun h => ⟨h, ?_⟩, fun h => h.1⟩
    rintro ⟨rfl, hover⟩
    rw [hkept t h] at hover
    cases hover

theorem Matched.expire {s : Session} (hs : s.Matched) (now : Nat) {key : Nat} (hkey : key < 16) :
    (s.expire now key).Matched := by
  rcases s.expire_cases now key with ⟨_, -, -, he⟩ | ⟨-, he⟩
  · rw [he]
    exact hs.touch ((toNat_key hkey).symm ▸ hkey) none
  · rw [he]
    exact hs

/-- A sweep over the first `n` keys. -/
theorem sweep_keys {s : Session} (hs : s.Matched) (now : Nat) {n : Nat} (hn : n ≤ 16) :
    let s' := (List.range n).foldl (Session.expire now) s
    s'.Matched ∧ ∀ k t, s'.since? k = some t ↔
      s.since? k = some t ∧ ¬(k < n ∧ overdue now t = true) := by
  induction n with
  | zero => exact ⟨hs, fun k t => ⟨fun h => ⟨h, fun hand => Nat.not_lt_zero k hand.1⟩, And.left⟩⟩
  | succ n ih =>
      obtain ⟨hmatched, hsince⟩ := ih (Nat.le_of_succ_le hn)
      dsimp only
      rw [List.range_succ, List.foldl_concat]
      refine ⟨hmatched.expire now hn, fun k t => ?_⟩
      rw [since?_expire hn, hsince, and_assoc, ← not_or, ← or_and_right, Nat.lt_succ_iff_lt_or_eq]

/-- Only the sixteen keys of the keypad are held. -/
theorem lt_of_since? {s : Session} {k t : Nat} (h : s.since? k = some t) : k < 16 := by
  refine Nat.not_le.mp fun hle => ?_
  have hnone : s.held[k]? = none := Vector.getElem?_eq_none hle
  rw [since?, hnone] at h
  cases h

/-! ## One input -/

/-- What an input does to the keys: the accounts of `s'`, in terms of those of `s`. -/
structure KeyStep (s : Session) (i : Input) (s' : Session) : Prop where
  matched : s'.Matched
  since : ∀ k t, s'.since? k = some t ↔
    i.pressed? k = some t ∨
      i.pressed? k = none ∧ i.letsGo k t s.releaseEvents = false ∧ s.since? k = some t
  releaseEvents : s'.releaseEvents = i.reportingAfter s.releaseEvents

section

variable {s s' : Session} {i : Input} (hs : s.Matched) (hpressed : ∀ k, i.pressed? k = none)
  (hi : ∀ before, i.reportingAfter before = before)

include hs hpressed hi

/-- What neither presses a key nor lets go of one. -/
theorem keyStep_of_sameKeys (h : SameKeys s s')
    (hkept : ∀ k since, i.letsGo k since s.releaseEvents = false) : KeyStep s i s' where
  matched := h.matched hs
  since k t := by simp [h.since?, hpressed, hkept]
  releaseEvents := h.releaseEvents.trans (hi _).symm

/-- What lets go of all keys. -/
theorem keyStep_reset (hgone : ∀ k since, i.letsGo k since s.releaseEvents = true) :
    KeyStep s i s.reset := by
  obtain ⟨memory, hreset⟩ := reset_of_le hs.fits
  have hnone : ∀ k, s.reset.since? k = none := by
    intro k
    rw [hreset]
    simp only [since?, nothingHeld, Vector.getElem?_replicate]
    split <;> rfl
  have hup : ∀ k, s.reset.isDown k = false := by
    intro k
    have hkeypad : s.reset.console.machine.keypad = .released := by
      rw [hreset]
      rfl
    simp only [isDown, hkeypad, Keypad.isDown, Keypad.released, Vector.getElem?_replicate]
    split <;> rfl
  refine ⟨⟨?_, fun k => ?_⟩, fun k t => ?_, ?_⟩
  · rw [hreset]
    exact hs.fits
  · rw [hnone, hup]
    rfl
  · simp [hnone, hpressed, hgone]
  · rw [hreset, hi]

end

section

variable {s : Session} (hs : s.Matched)

include hs

/-- A key of the keypad is pressed, or let go of. -/
theorem keyStep_touch {code : KeyCode} {key : UInt8} (hcode : keypadKey? code = some key)
    (event : KeyEvent) (now : Nat) :
    KeyStep s (.key code event now)
      (if event = .release then s.touch key none else s.touch key (some now)) := by
  have hkey := keypadKey?_lt hcode
  have hmeans : ∀ k, code.means k = decide (key.toNat = k) := by
    intro k
    rw [KeyCode.means, hcode]
    rfl
  have hx : code ≠ .char 'x' := by
    rintro rfl
    cases hcode
  rw [← apply_ite (s.touch key)]
  refine ⟨hs.touch hkey _, fun k t => ?_, ?_⟩
  · rw [since?_touch hkey]
    by_cases hk : k = key.toNat
    · subst hk
      by_cases hevent : event = .release <;>
        simp [Input.pressed?, Input.letsGo, hmeans, hevent]
    · simp [Input.pressed?, Input.letsGo, hmeans, hk, hx, Ne.symm hk]
  · rw [touch_eq hkey]
    rfl

/-- Any other key of the keyboard lets go of all keys, if it is the one that resets, or of none. -/
theorem keyStep_command {code : KeyCode} (hcode : keypadKey? code = none) (event : KeyEvent)
    (now : Nat) :
    KeyStep s (.key code event now) (if event = .press then s.command code else s) := by
  have hmeans : ∀ k, code.means k = false := by
    intro k
    rw [KeyCode.means, hcode]
    rfl
  have hpressed : ∀ k, (Input.key code event now).pressed? k = none := by
    intro k
    simp [Input.pressed?, hmeans]
  have hi : ∀ before, (Input.key code event now).reportingAfter before = before :=
    fun before => rfl
  by_cases hx : code = .char 'x' ∧ event = .press
  · obtain ⟨rfl, rfl⟩ := hx
    exact keyStep_reset hs hpressed hi fun k since => by simp [Input.letsGo]
  · have hkept : ∀ k since, (Input.key code event now).letsGo k since s.releaseEvents = false := by
      intro k since
      simpa [Input.letsGo, hmeans] using hx
    refine keyStep_of_sameKeys hs hpressed hi ?_ hkept
    split
    · rename_i hevent
      exact command_sameKeys fun hcode => hx ⟨hcode, hevent⟩
    · exact ⟨rfl, rfl, rfl, rfl⟩

/-- A sweep lets go of the keys that are overdue, unless the terminal reports releases. -/
theorem keyStep_expire (now : Nat) : KeyStep s (.expire now) (s.releaseExpired now) := by
  have hpressed : ∀ k, (Input.expire now).pressed? k = none := fun k => rfl
  have hlets : ∀ k t, (Input.expire now).letsGo k t s.releaseEvents =
      (!s.releaseEvents && overdue now t) := fun k t => rfl
  by_cases hterminal : s.releaseEvents = true
  · rw [releaseExpired, if_pos hterminal]
    refine keyStep_of_sameKeys hs hpressed (fun before => rfl) ⟨rfl, rfl, rfl, rfl⟩ fun k t => ?_
    rw [hlets, hterminal]
    rfl
  · have hreports : (s.releaseExpired now).releaseEvents = s.releaseEvents := by
      obtain ⟨_, _, he⟩ := s.handled_releaseExpired now
      rw [he]
    obtain ⟨hmatched, hsince⟩ := sweep_keys hs now (Nat.le_refl 16)
    have hsweep : s.releaseExpired now = (List.range 16).foldl (Session.expire now) s :=
      if_neg hterminal
    refine ⟨hsweep ▸ hmatched, fun k t => ?_, hreports⟩
    rw [hsweep, hsince, hpressed, hlets, Bool.eq_false_of_not_eq_true hterminal]
    constructor
    · rintro ⟨h, hnot⟩
      have hsoon : overdue now t = false :=
        Bool.eq_false_of_not_eq_true fun hover => hnot ⟨lt_of_since? h, hover⟩
      exact .inr ⟨rfl, hsoon, h⟩
    · rintro (h | ⟨-, hsoon, h⟩)
      · cases h
      · refine ⟨h, fun hand => ?_⟩
        have hover : false = true := hsoon.symm.trans hand.2
        cases hover

/-- **What one input does to the keys.** -/
theorem react_keys (i : Input) : KeyStep s i (s.react i) := by
  cases i with
  | key code event now =>
      rw [react, handleKey]
      cases hcode : keypadKey? code with
      | some key => exact keyStep_touch hs hcode event now
      | none => exact keyStep_command hs hcode event now
  | expire now => exact keyStep_expire hs now
  | reports releases =>
      refine ⟨⟨hs.fits, hs.down⟩, fun k t => ?_, rfl⟩
      simp [Input.pressed?, Input.letsGo, react, since?]
  | tick =>
      exact keyStep_of_sameKeys hs (fun k => rfl) (fun before => rfl) s.tick_played.sameKeys
        fun k since => rfl
  | step =>
      exact keyStep_of_sameKeys hs (fun k => rfl) (fun before => rfl) s.step_played.sameKeys
        fun k since => rfl
  | pause =>
      exact keyStep_of_sameKeys hs (fun k => rfl) (fun before => rfl) ⟨rfl, rfl, rfl, rfl⟩
        fun k since => rfl
  | reset => exact keyStep_reset hs (fun k => rfl) (fun before => rfl) fun k since => rfl

end

/-! ## Any inputs -/

theorem after_keys {s : Session} (h : Started s) (inputs : List Input) :
    (s.after inputs).Matched ∧ (s.after inputs).releaseEvents = Input.reporting inputs ∧
      ∀ k t, (s.after inputs).since? k = some t ↔ Input.HeldSince k t inputs := by
  induction inputs using List.reverseRecOn with
  | nil =>
      have hnone : ∀ k, s.since? k = none := by
        intro k
        simp only [since?, h.held, nothingHeld, Vector.getElem?_replicate]
        split <;> rfl
      refine ⟨⟨h.fits, fun k => ?_⟩, h.releaseEvents, fun k t => ?_⟩
      · rw [after, List.foldl_nil, hnone, isDown, h.keypad]
        simp only [Keypad.isDown, Keypad.released, Vector.getElem?_replicate]
        split <;> rfl
      · rw [after, List.foldl_nil, hnone]
        constructor
        · intro hs
          cases hs
        · rintro ⟨j, i, hj, -⟩
          cases hj
  | append_singleton inputs i ih =>
      obtain ⟨hmatched, hreports, hsince⟩ := ih
      have hstep := react_keys hmatched i
      rw [after_concat]
      refine ⟨hstep.matched, ?_, fun k t => ?_⟩
      · rw [hstep.releaseEvents, hreports, Input.reporting, Input.reporting, List.foldl_concat]
      · rw [hstep.since, hreports, hsince, Input.heldSince_concat]

/--
**Keys follow their history.**

After any inputs to a new session, a key of the keypad is down exactly if it was pressed,
or reported again, and since the last time nothing has let go of it: no release, no reset,
and no sweep that came at least 150 milliseconds later while the terminal did not report
releases. The session holds the key since that last time, and holds it exactly if it is
down.
-/
theorem keys_follow_history {settings : Settings} {image : List UInt8} {entropy : KeyStream}
    {s₀ : Session} (h : Session.new settings image entropy = .ok s₀) (inputs : List Input)
    (k : Nat) :
    let s := s₀.after inputs
    (s.console.machine.keypad.isDown k = true ↔ ∃ t, Input.HeldSince k t inputs) ∧
    (∀ t, s.held[k]?.getD none = some t ↔ Input.HeldSince k t inputs) ∧
    ((s.held[k]?.getD none).isSome = true ↔ s.console.machine.keypad.isDown k = true) := by
  intro s
  obtain ⟨hmatched, -, hsince⟩ := after_keys (started_of_new h) inputs
  have hdown : s.console.machine.keypad.isDown k = (s.since? k).isSome := hmatched.down k
  refine ⟨?_, hsince k, by rw [hdown, since?]⟩
  rw [hdown, Option.isSome_iff_exists]
  exact exists_congr (hsince k)

/-- A sweep 150 milliseconds after a press lets go of the key. When it is reported again, it stays
down at a sweep soon after, and at a late one once the terminal reports releases. -/
theorem keys_follow_history_again :
    let first : List Input := [.key (.char 'u') .press 1000000000, .expire 1150000000]
    let inputs : List Input := first ++ [.key (.char 'U') .again 1200000000, .expire 1300000000,
      .reports true, .expire 9000000000]
    ∃ s₀, Session.new ⟨480, 60, some 7⟩ [0x12, 0x00] (.ofSeed 0) = .ok s₀ ∧
      (s₀.after first).console.machine.keypad.isDown 4 = false ∧
      (s₀.after inputs).console.machine.keypad.isDown 4 = true ∧
      (s₀.after inputs).held[4]?.getD none = some 1200000000 := by
  intro first inputs
  have hsettings : Settings.validate ⟨480, 60, some 7⟩ = .ok () := rfl
  have himage : List.length [(0x12 : UInt8), 0x00] ≤ 3584 := by decide
  obtain ⟨s₀, h₀⟩ := exists_new (.ofSeed 0) hsettings himage
  have hgone : ∀ t, ¬Input.HeldSince 4 t first := by
    rintro t ⟨j, i, hj, hpress, hlater⟩
    have hlt : j < 2 := (List.getElem?_eq_some_iff.mp hj).1
    obtain rfl | rfl : j = 0 ∨ j = 1 := by omega
    · cases hj
      obtain rfl : 1000000000 = t := Option.some.inj hpress
      obtain ⟨-, hkept⟩ := hlater 1 (.expire 1150000000) Nat.zero_lt_one rfl
      exact absurd hkept (by decide)
    · -- a sweep presses nothing
      cases hj
      cases hpress
  have hheld : Input.HeldSince 4 1200000000 inputs := by
    refine ⟨2, .key (.char 'U') .again 1200000000, rfl, by decide, fun j' i' hj hj' => ?_⟩
    have hlt : j' < 6 := (List.getElem?_eq_some_iff.mp hj').1
    obtain rfl | rfl | rfl : j' = 3 ∨ j' = 4 ∨ j' = 5 := by omega
    all_goals
      cases hj'
      decide
  obtain ⟨hup, -⟩ := keys_follow_history h₀ first 4
  obtain ⟨hdown, hsince, -⟩ := keys_follow_history h₀ inputs 4
  exact ⟨s₀, h₀, Bool.eq_false_of_not_eq_true fun h => (hup.mp h).elim hgone,
    hdown.mpr ⟨1200000000, hheld⟩, (hsince 1200000000).mpr hheld⟩

end Session

end ChipEight
