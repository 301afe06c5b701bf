import ChipEight.Proofs.Cycle
import ChipEight.Proofs.Requests

/-!
# The repaint mark accounts for every change

A front end keeps a picture of the screen and repaints it when it is told that the
screen changed. For the picture to be right, every change must leave the mark up
until the front end takes it.

`Accounted picture m` says just that: the screen of `m` is the picture, or the mark
is up. Cycles keep it, since the only instructions that touch the screen leave the
mark on it, and nothing else that happens while a program runs touches it at all.
A reset is another matter. It puts a blank screen in place of the old one, with the
mark down, so it can turn pixels off unannounced. After a reset the mark accounts
for changes against a blank picture, and no longer against what the front end shows.

`Marked` says what the mark itself tells: whether an instruction has painted since
the mark was taken or the machine was reset. The two together say exactly when a
change goes unannounced.
-/

namespace ChipEight

/-- The pixels of a screen, as a front end shows them. -/
abbrev Pixels := Vector Bool 2048

theorem Screen.pixels_ne {s s' : Screen} {x y : Nat} (h : s.pixel x y = true)
    (h' : s'.pixel x y = false) : s.pixels ≠ s'.pixels := by
  intro he
  rw [pixel, he, ← pixel, h'] at h
  cases h

/-- Whether an instruction clears the screen or draws on it. -/
def Instruction.paints : Instruction → Bool
  | clear => true
  | draw _ _ _ => true
  | _ => false

namespace Machine

/-! ## What a cycle does to the screen -/

@[simp] theorem screen_withRegisters (m : Machine) (r : Registers) :
    (m.withRegisters r).screen = m.screen := rfl

/-- An instruction that paints leaves the mark up, and others leave the screen alone. -/
theorem execute_screen {m m' : Machine} {a : UInt16} {w : Word} {i : Instruction}
    (h : m.execute a w i = (.ok (), m')) :
    (i.paints = true ∧ m'.screen.dirty = true) ∨ (i.paints = false ∧ m'.screen = m.screen) := by
  cases i with
  | clear =>
      cases h
      exact .inl ⟨rfl, rfl⟩
  | draw x y n =>
      obtain ⟨-, rfl⟩ := reading_ok h
      exact .inl ⟨rfl, rfl⟩
  | loadRegisters x =>
      obtain ⟨-, rfl⟩ := reading_ok h
      exact .inr ⟨rfl, screen_withRegisters _ _⟩
  | storeDecimal | storeRegisters =>
      obtain ⟨-, rfl⟩ := writing_ok h
      exact .inr ⟨rfl, rfl⟩
  | skipPressed | skipReleased =>
      obtain ⟨-, rfl⟩ := asking_ok h
      exact .inr ⟨rfl, rfl⟩
  | ret | call | waitKey =>
      simp only [execute] at h
      split at h <;> cases h <;> exact .inr ⟨rfl, rfl⟩
  | _ =>
      cases h
      exact .inr ⟨rfl, rfl⟩

theorem screen_of_executed {m m' : Machine} {i : Instruction} (h : m.cycle = (.ok i, m')) :
    (i.paints = true ∧ m'.screen.dirty = true) ∨ (i.paints = false ∧ m'.screen = m.screen) := by
  cases cycled_of_eq h with
  | executed _ _ _ he =>
      have hs := execute_screen he
      exact hs
  | released _ _ => exact .inr ⟨rfl, rfl⟩
  | blocked _ _ => exact .inr ⟨rfl, rfl⟩

theorem screen_of_faulted {m m' : Machine} {e : Fault} (h : m.cycle = (.error e, m')) :
    m'.screen = m.screen := by
  cases cycled_of_eq h with
  | refused _ _ hd he =>
      obtain ⟨_, rfl⟩ := (execute_eq_error_iff (Word.inRange_of_decode? hd)).mp he
      rfl
  | _ => rfl

/-! ## What the mark tells -/

/-- The mark is up exactly if one of the instructions painted. -/
def Marked (is : List Instruction) (m : Machine) : Prop :=
  m.screen.dirty = is.any Instruction.paints

theorem marked_kept : HistoryKept Marked where
  executed {is m m' i} h hm := by
    rw [Marked, List.any_append, ← h, List.any_cons, List.any_nil, Bool.or_false]
    rcases screen_of_executed hm with ⟨hp, hd⟩ | ⟨hp, hs⟩
    · rw [hp, hd, Bool.or_true]
    · rw [hp, hs, Bool.or_false]
  faulted h hm := by
    rw [Marked, screen_of_faulted hm]
    exact h
  tick h := h
  keypad _ h := h
  memory _ h := h
  reset _ := rfl

/-! ## What the mark accounts for -/

variable {picture : Pixels}

/-- The screen is what the picture shows, or the repaint mark is up. -/
def Accounted (picture : Pixels) (m : Machine) : Prop :=
  m.screen.pixels = picture ∨ m.screen.dirty = true

theorem accounted_self (m : Machine) : Accounted m.screen.pixels m :=
  .inl rfl

theorem Accounted.pixels_eq {m : Machine} (h : Accounted picture m)
    (hd : m.screen.dirty = false) : m.screen.pixels = picture := by
  rcases h with hp | hmark
  · exact hp
  · rw [hd] at hmark
    cases hmark

theorem Accounted.of_screen {m m' : Machine} (h : Accounted picture m)
    (hs : m'.screen = m.screen) : Accounted picture m' := by
  rw [Accounted, hs]
  exact h

theorem Accounted.cycle {m : Machine} (h : Accounted picture m) : Accounted picture m.cycle.2 := by
  rcases hm : m.cycle with ⟨e | i, m'⟩
  · exact h.of_screen (screen_of_faulted hm)
  · rcases screen_of_executed hm with ⟨-, hd⟩ | ⟨-, hs⟩
    · exact .inr hd
    · exact h.of_screen hs

theorem Accounted.run {m : Machine} (h : Accounted picture m) (n : Nat) :
    Accounted picture (m.run n).2 :=
  run_keeps Accounted.cycle n h

/-- What a front end may believe after an operation: it sees the screen when it takes the mark, and
a reset leaves a blank screen. -/
def believed (m : Machine) (picture : Pixels) : Operation → Pixels
  | .event .repaint => m.screen.pixels
  | .reset => Screen.blank.pixels
  | _ => picture

theorem believed_of_ne (m : Machine) {op : Operation} (hrepaint : op ≠ .event .repaint)
    (hreset : op ≠ .reset) : m.believed picture op = picture := by
  cases op with
  | event e =>
      cases e with
      | repaint => exact absurd rfl hrepaint
      | _ => rfl
  | reset => exact absurd rfl hreset
  | _ => rfl

/-- **One operation leaves every change accounted for**, against what may be believed then. -/
theorem Accounted.perform {m : Machine} (h : Accounted picture m) (op : Operation) :
    Accounted (m.believed picture op) (m.perform op).2 := by
  cases op with
  | event e =>
      cases e with
      | cycle => exact h.cycle
      | tick => exact h
      | key key down =>
          obtain ⟨keypad, hm⟩ := m.exists_handle_key key down
          rw [Machine.perform, hm]
          exact h
      | repaint => exact .inl rfl
  | run n =>
      rw [Machine.perform, runCycles_snd]
      exact h.run n
  | load program =>
      obtain ⟨memory, hm⟩ := m.exists_perform_load program
      rw [hm]
      exact h
  | reset => exact .inl rfl

/-- So do any operations that leave the mark to the front end. -/
theorem Accounted.perform_all {m : Machine} {ops : List Operation} (h : Accounted picture m)
    (hops : .event .repaint ∉ ops) :
    Accounted (if .reset ∈ ops then Screen.blank.pixels else picture)
      (answersTo Machine.perform m ops).2 := by
  induction ops generalizing m picture with
  | nil => exact h
  | cons op ops ih =>
      obtain ⟨hop, hrest⟩ := List.ne_and_not_mem_of_not_mem_cons hops
      have hnext := ih (h.perform op) hrest
      by_cases hreset : op = .reset
      · subst hreset
        rw [believed, ite_self] at hnext
        rw [if_pos List.mem_cons_self]
        exact hnext
      · rw [m.believed_of_ne hop.symm hreset] at hnext
        simpa [answersTo, Ne.symm hreset] using hnext

/-- A change is unmarked exactly if a reset made it. -/
theorem marked_iff (m : Machine) {ops : List Operation} (hops : .event .repaint ∉ ops) :
    let m' := (answersTo Machine.perform m ops).2
    (m'.screen.pixels ≠ m.screen.pixels → m'.screen.dirty = true) ↔
      ¬(.reset ∈ ops ∧ m'.screen.dirty = false ∧ m.screen.pixels ≠ Screen.blank.pixels) := by
  intro m'
  have h : m'.Accounted _ := m.accounted_self.perform_all hops
  constructor
  · rintro hmarked ⟨hreset, hd, hlit⟩
    rw [if_pos hreset] at h
    have hchange : m'.screen.pixels ≠ m.screen.pixels := by
      rw [h.pixels_eq hd]
      exact hlit.symm
    rw [hmarked hchange] at hd
    cases hd
  · intro hno hchange
    rw [← Bool.not_eq_false]
    intro hd
    by_cases hreset : .reset ∈ ops
    · rw [if_pos hreset] at h
      have hlit : m.screen.pixels ≠ Screen.blank.pixels := by
        rw [← h.pixels_eq hd]
        exact hchange.symm
      exact hno ⟨hreset, hd, hlit⟩
    · rw [if_neg hreset] at h
      exact hchange (h.pixels_eq hd)

end Machine

/-! ## A front end -/

/-- Whether a request is silent about the screen although it may replace it or take its mark. -/
def Request.silent : Request → Bool
  | frames _ => true
  | restart _ => true
  | machine .reset => true
  | _ => false

/-- Whether a reply says that a repaint is due. -/
def Reply.repaintDue : Reply → Bool
  | framed (.ok report) => report.dirty
  | machine (.repaint due) => due
  | _ => false

/-- A console and the picture of its screen that a front end shows. -/
structure Viewer where
  console : Console
  picture : Pixels

namespace Viewer

/-- What the console's screen shows. -/
def screen (v : Viewer) : Pixels :=
  v.console.machine.screen.pixels

variable (unasked : Request → Bool)

/-- Make a request, and repaint when the reply says so. After some requests the front end repaints
unasked. -/
def request (v : Viewer) (r : Request) : Viewer :=
  let s := v.console.serve r
  { console := s.2
    picture := if unasked r || s.1.repaintDue then s.2.machine.screen.pixels else v.picture }

variable {unasked}

theorem console_request (v : Viewer) (r : Request) :
    (v.request unasked r).console = (v.console.serve r).2 := rfl

theorem picture_of_told {v : Viewer} {r : Request}
    (h : unasked r = true ∨ (v.console.serve r).1.repaintDue = true) :
    (v.request unasked r).picture = (v.request unasked r).screen :=
  if_pos (Bool.or_eq_true_iff.mpr h)

theorem picture_of_untold {v : Viewer} {r : Request}
    (h : ¬(unasked r = true ∨ (v.console.serve r).1.repaintDue = true)) :
    (v.request unasked r).picture = v.picture :=
  if_neg fun hor => h (Bool.or_eq_true_iff.mp hor)

/-- Every change that the picture does not show is marked. -/
def Accounted (v : Viewer) : Prop :=
  v.console.machine.Accounted v.picture

/-- With the mark down, the picture is right. -/
theorem Accounted.shown {v : Viewer} (h : v.Accounted)
    (hd : v.console.machine.screen.dirty = false) : v.picture = v.screen :=
  (Machine.Accounted.pixels_eq h hd).symm

/-- A frame that does not report a change made none, or has left the mark up. -/
theorem Accounted.framed {v : Viewer} {c : Console} {r : Except Fault FrameReport}
    (h : v.Accounted) (hf : v.console.Framed r c) (hd : ¬(Reply.framed r).repaintDue = true) :
    c.machine.Accounted v.picture := by
  have hrun := h.run v.console.budget.toNat
  cases hf with
  | completed hm =>
      rw [hm] at hrun
      rcases hrun with hp | hmark
      · exact .inl hp
      · exact absurd hmark hd
  | abandoned hm =>
      rw [hm] at hrun
      exact hrun

/-- An operation that does not say that a repaint is due leaves the belief as it was. -/
theorem Accounted.believed {v : Viewer} {op : Operation} (h : v.Accounted)
    (hsilent : ¬(Request.machine op).silent = true)
    (hd : ¬(Reply.machine (v.console.machine.perform op).1).repaintDue = true) :
    v.console.machine.believed v.picture op = v.picture := by
  by_cases hrepaint : op = .event .repaint
  · subst hrepaint
    exact (h.shown (Bool.not_eq_true _ ▸ hd)).symm
  · exact v.console.machine.believed_of_ne hrepaint fun hr => hsilent (hr ▸ rfl)

/-- **A request leaves every change accounted for**, if the front end repaints unasked after a
silent one. -/
theorem Accounted.request {v : Viewer} {r : Request} (h : v.Accounted)
    (hr : r.silent = true → unasked r = true) : (v.request unasked r).Accounted := by
  by_cases htold : unasked r = true ∨ (v.console.serve r).1.repaintDue = true
  · exact .inl (picture_of_told htold).symm
  · rw [Accounted, picture_of_untold htold]
    obtain ⟨hunasked, hdue⟩ := not_or.mp htold
    have hsilent : ¬r.silent = true := fun hs => hunasked (hr hs)
    cases r with
    | frame => exact h.framed v.console.runFrame_framed hdue
    | frames n => exact absurd rfl hsilent
    | load image =>
        rw [console_request, Console.serve_load]
        exact Machine.Accounted.perform h (.load image)
    | key key down =>
        rw [console_request, Console.serve_key]
        exact Machine.Accounted.perform h (.event (.key key down))
    | restart image => exact absurd rfl hsilent
    | machine op =>
        have hop := Machine.Accounted.perform h op
        rw [h.believed hsilent hdue] at hop
        exact hop

theorem accounted_requests {v : Viewer} {requests : List Request} (h : v.Accounted)
    (hr : ∀ r ∈ requests, r.silent = true → unasked r = true) :
    (requests.foldl (request unasked) v).Accounted := by
  induction requests generalizing v with
  | nil => exact h
  | cons r rs ih =>
      exact ih (h.request (hr r List.mem_cons_self)) fun r' hm => hr r' (List.mem_cons_of_mem r hm)

end Viewer

/-- **Only a reset changes the screen unannounced.** Between two calls that take the mark, the
second tells whether an instruction painted since the first, or since the last reset. So it fails
to tell of a change exactly if there was a reset, nothing painted after it, and the screen was not
blank before. A front end that repaints when told, and unasked after the silent requests that it
makes, shows the screen unless the mark is up, and so after every frame that completes. -/
theorem changes_marked (m : Machine) {ops : List Operation} (hops : .event .repaint ∉ ops)
    (c : Console) (unasked : Request → Bool) {requests : List Request}
    (hrequests : ∀ r ∈ requests, r.silent = true → unasked r = true) :
    let m₁ := (m.perform (.event .repaint)).2
    let m₂ := (answersTo Machine.perform m₁ ops).2
    let painted := (m₁.history [] ops).any Instruction.paints
    let v := requests.foldl (Viewer.request unasked) ⟨c, c.machine.screen.pixels⟩
    (m₂.perform (.event .repaint)).1 = .repaint painted ∧
    ((m₂.screen.pixels ≠ m₁.screen.pixels → (m₂.perform (.event .repaint)).1 = .repaint true) ↔
      ¬(.reset ∈ ops ∧ painted = false ∧ m₁.screen.pixels ≠ Screen.blank.pixels)) ∧
    (v.picture = v.screen ∨ (v.console.machine.perform (.event .repaint)).1 = .repaint true) ∧
    ∀ report, (v.console.serve .frame).1 = .framed (.ok report) →
      (v.request unasked .frame).picture = (v.request unasked .frame).screen := by
  intro m₁ m₂ painted v
  have hmark : m₂.screen.dirty = painted :=
    Machine.marked_kept.perform_all (fun hmem => absurd hmem hops) rfl
  have hstart : Viewer.Accounted ⟨c, c.machine.screen.pixels⟩ := c.machine.accounted_self
  have hv : v.Accounted := Viewer.accounted_requests hstart hrequests
  refine ⟨congrArg Answer.repaint hmark, ?_, ?_, fun report hr => ?_⟩
  · have hiff := m₁.marked_iff hops
    rw [← hmark]
    simpa only [Machine.perform, Machine.handle, Answer.repaint.injEq] using hiff
  · rcases hv with hp | hd
    · exact .inl hp.symm
    · exact .inr (congrArg Answer.repaint hd)
  · have hframe : (v.request unasked .frame).Accounted := hv.request fun hs => by cases hs
    exact hframe.shown (Console.settled_of_completed hr)

/-- A digit is drawn on a blank screen, by cycles and in a frame: the mark tells of it, and a front
end that only does as it is told shows it. -/
theorem changes_marked_digit :
    let m := Machine.ofSeed 7
    let image : List UInt8 := [0xA0, 0x50, 0xD0, 0x05]
    let m₂ := (answersTo Machine.perform (m.perform (.event .repaint)).2 [.load image, .run 2]).2
    let c : Console := { machine := m, settings := ⟨120, 60, some 7⟩, frames := 0, carry := 0 }
    let told : Request → Bool := fun _ => false
    let v := [Request.load image].foldl (Viewer.request told) ⟨c, c.machine.screen.pixels⟩
    (m₂.perform (.event .repaint)).1 = .repaint true ∧
      (v.console.serve .frame).1 = .framed (.ok ⟨2, true, false, false⟩) ∧
      (v.request told .frame).picture = (v.request told .frame).screen := by
  intro m image m₂ c told v
  have hops : Operation.event .repaint ∉ [.load image, .run 2] := by decide
  have hrequests : ∀ r ∈ [Request.load image], r.silent = true → told r = true := by
    intro r hr hs
    rw [List.mem_singleton.mp hr] at hs
    cases hs
  obtain ⟨hanswer, -, -, hshown⟩ := changes_marked m hops c told hrequests
  have hpainted : ((m.perform (.event .repaint)).2.history [] [.load image, .run 2]).any
      Instruction.paints = true := by decide +kernel
  have hreport : v.console.runFrame.1.toOption = some ⟨2, true, false, false⟩ := by
    decide +kernel
  have hframe : (v.console.serve .frame).1 = .framed (.ok ⟨2, true, false, false⟩) :=
    congrArg Reply.framed (eq_ok_of_toOption hreport)
  exact ⟨hanswer.trans (congrArg Answer.repaint hpainted), hframe, hshown _ hframe⟩

/-- A reset turns lit pixels off and leaves no mark, and after a restart a front end that only does
as it is told shows the old picture. -/
theorem reset_unmarked :
    let image : List UInt8 := [0xA0, 0x50, 0xD0, 0x05]
    let m := (answersTo Machine.perform (Machine.ofSeed 7)
      [.load image, .run 2, .event .repaint]).2
    let m₂ := (answersTo Machine.perform m [.reset]).2
    let c : Console :=
      { machine := Machine.ofSeed 7, settings := ⟨120, 60, some 7⟩, frames := 0, carry := 0 }
    let v := [.load image, .frame, .restart [0x12, 0x00], .frame].foldl
      (Viewer.request fun _ => false) ⟨c, c.machine.screen.pixels⟩
    (m₂.screen.pixels ≠ m.screen.pixels ∧ (m₂.perform (.event .repaint)).1 = .repaint false) ∧
      v.picture ≠ v.screen := by
  intro image m m₂ c v
  have hlit : m.screen.pixel 0 0 = true := by decide +kernel
  have hshown : v.picture[0] = true ∧ v.screen[0] = false := by decide +kernel
  refine ⟨⟨(Screen.pixels_ne hlit (Screen.pixel_blank 0 0)).symm, rfl⟩, fun h => ?_⟩
  rw [h, hshown.2] at hshown
  cases hshown.1

end ChipEight
