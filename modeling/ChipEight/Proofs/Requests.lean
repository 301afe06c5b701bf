import ChipEight.Console
import ChipEight.Proofs.Runs

/-!
# Requests to a console

What a front end can ask of a console, as data: the console's own operations, and
any operation on the machine behind its back. Again nothing writes a register from
outside.

Everything a console does comes down to three things. It runs a frame, it does an
operation on its machine, and it resets. `Framed` lists the two ways a frame can
end, and `Console.Kept` packages the induction over reachable consoles.
-/

namespace ChipEight

/-- What can be asked of a console. -/
inductive Request where
  | frame
  | frames (n : Nat)
  | load (image : List UInt8)
  | key (key : UInt8) (down : Bool)
  | restart (image : List UInt8)
  /-- An operation on the machine, past the console. -/
  | machine (op : Operation)
deriving DecidableEq

/-- What comes back. -/
inductive Reply where
  | framed (r : Except Fault FrameReport)
  | ran (r : Except Fault Nat)
  | loaded (r : Except MemoryError Unit)
  | keyed (r : Except NoSuchKey Unit)
  | machine (a : Answer)

namespace Console

/-- A request and its reply. -/
def serve (c : Console) : Request → Reply × Console
  | .frame => (.framed c.runFrame.1, c.runFrame.2)
  | .frames n => (.ran (c.runFrames n).1, (c.runFrames n).2)
  | .load image => (.loaded (c.load image).1, (c.load image).2)
  | .key key down =>
    match c.setKey key down with
    | .ok c' => (.keyed (.ok ()), c')
    | .error e => (.keyed (.error e), c)
  | .restart image => (.loaded (c.restart image).1, (c.restart image).2)
  | .machine op => (.machine (c.machine.perform op).1, c.withMachine (c.machine.perform op).2)

/-- The consoles that requests lead to from a new one. -/
inductive Reachable (s : Settings) (entropy : KeyStream) : Console → Prop where
  | new {c : Console} : Console.new s entropy = .ok c → Reachable s entropy c
  | serve {c : Console} (r : Request) : Reachable s entropy c → Reachable s entropy (c.serve r).2

/-- A console that `new` gives was accepted, and is at its start. -/
theorem new_eq_ok {s : Settings} {entropy : KeyStream} {c : Console}
    (h : Console.new s entropy = .ok c) :
    s.validate = .ok () ∧
      c = { machine := freshMachine s entropy, settings := s, frames := 0, carry := 0 } := by
  unfold Console.new at h
  split at h
  · rename_i hv
    cases h
    exact ⟨hv, rfl⟩
  · cases h

/-- A console starts with a machine at power-on, whichever stream it draws on. -/
theorem exists_freshMachine (s : Settings) (entropy : KeyStream) :
    ∃ random seed, freshMachine s entropy = .powerOn random seed := by
  unfold freshMachine
  split
  · exact ⟨_, _, rfl⟩
  · exact ⟨_, _, rfl⟩

/-! ## Frames -/

/-- `Framed c r c'`: a frame of `c` may give the report `r` and leave `c'`. -/
inductive Framed (c : Console) : Except Fault FrameReport → Console → Prop where
  | completed {m : Machine} : c.machine.run c.budget.toNat = (none, m) →
      Framed c (.ok (c.report m)) (c.complete m)
  | abandoned {e : Fault} {m : Machine} : c.machine.run c.budget.toNat = (some e, m) →
      Framed c (.error e) (c.abandon m)

/-- **A frame ends in one of the two ways.** -/
theorem runFrame_framed (c : Console) : Framed c c.runFrame.1 c.runFrame.2 := by
  have hrun := Machine.runWith_snd (fun _ _ s => s) c.budget.toNat () c.machine
  rw [runFrame, runFrameWith]
  split <;> rename_i hm <;> rw [hm] at hrun
  · exact .completed hrun.symm
  · exact .abandoned hrun.symm

theorem Framed.settings {c c' : Console} {r : Except Fault FrameReport} (h : Framed c r c') :
    c'.settings = c.settings := by
  cases h <;> rfl

/-- The carry moves on whether or not a frame faults. -/
theorem Framed.carry {c c' : Console} {r : Except Fault FrameReport} (h : Framed c r c') :
    c'.carry = c.settings.nextCarry c.carry := by
  cases h <;> rfl

/-- A frame that completes takes the repaint mark. -/
theorem Framed.settled {c c' : Console} {report : FrameReport} (h : Framed c (.ok report) c') :
    c'.machine.screen.dirty = false := by
  cases h
  rfl

theorem advance_succ (n : Nat) (c : Console) :
    advance (n + 1) c =
      match c.runFrame with
      | (.error e, c') => (some e, c')
      | (.ok _, c') => advance n c' := rfl

theorem runFrames_snd (c : Console) (n : Nat) : (c.runFrames n).2 = (advance n c).2 := by
  unfold runFrames
  split <;> simp [*]

/-! ## What a request comes down to -/

theorem settled_of_completed {c : Console} {report : FrameReport}
    (h : (c.serve .frame).1 = .framed (.ok report)) :
    (c.serve .frame).2.machine.screen.dirty = false := by
  have hr : c.runFrame.1 = .ok report := Reply.framed.inj h
  have hf := c.runFrame_framed
  rw [hr] at hf
  exact hf.settled

theorem serve_load (c : Console) (image : List UInt8) :
    (c.serve (.load image)).2 = c.withMachine (c.machine.perform (.load image)).2 :=
  rfl

theorem serve_key (c : Console) (key : UInt8) (down : Bool) :
    (c.serve (.key key down)).2 =
      c.withMachine (c.machine.perform (.event (.key key down))).2 := by
  simp only [serve, setKey, Machine.perform, Machine.handle]
  cases c.machine.setKey key down <;> rfl

theorem serve_restart (c : Console) (image : List UInt8) :
    (c.serve (.restart image)).2 = (c.reset.serve (.load image)).2 :=
  rfl

/-! ## Properties that requests keep -/

/-- No request breaks `P`. -/
structure Kept (P : Console → Prop) : Prop where
  frame : ∀ {c : Console}, P c → P c.runFrame.2
  machine : ∀ {c : Console} (op : Operation), P c → P (c.withMachine (c.machine.perform op).2)
  reset : ∀ {c : Console}, P c → P c.reset

namespace Kept

variable {P : Console → Prop}

theorem advance (hP : Kept P) (n : Nat) {c : Console} (h : P c) : P (Console.advance n c).2 := by
  induction n generalizing c with
  | zero => exact h
  | succ n ih =>
      have hf := hP.frame h
      rw [advance_succ]
      -- a fault ends the run with the console of this frame
      split <;> rename_i hc <;> rw [hc] at hf
      · exact hf
      · exact ih hf

theorem serve (hP : Kept P) (r : Request) {c : Console} (h : P c) : P (c.serve r).2 := by
  cases r with
  | frame => exact hP.frame h
  | frames n =>
      rw [Console.serve, runFrames_snd]
      exact hP.advance n h
  | load image =>
      rw [serve_load]
      exact hP.machine _ h
  | key key down =>
      rw [serve_key]
      exact hP.machine _ h
  | restart image =>
      rw [serve_restart, serve_load]
      exact hP.machine _ (hP.reset h)
  | machine op => exact hP.machine op h

theorem reachable (hP : Kept P) {s : Settings} {entropy : KeyStream}
    (h0 : ∀ {c : Console}, Console.new s entropy = .ok c → P c) {c : Console}
    (h : Reachable s entropy c) : P c := by
  induction h with
  | new hc => exact h0 hc
  | serve r _ ih => exact hP.serve r ih

end Kept

/-- The settings of a reachable console are those it was made with, and were accepted. -/
theorem settings_reachable {s : Settings} {entropy : KeyStream} {c : Console}
    (h : Reachable s entropy c) : c.settings = s ∧ s.validate = .ok () := by
  have hkept : Kept fun c => c.settings = s ∧ s.validate = .ok () :=
    { frame := fun {c} h => (runFrame_framed c).settings ▸ h, machine := fun _ h => h,
      reset := fun h => h }
  refine hkept.reachable (fun hc => ?_) h
  obtain ⟨hv, rfl⟩ := new_eq_ok hc
  exact ⟨rfl, hv⟩

end Console

/-! ## Properties that operations on the machine keep -/

namespace Machine.Kept

variable {P : Machine → Prop}

theorem framed (hP : Kept P) {c c' : Console} {r : Except Fault FrameReport} (h : P c.machine)
    (hf : c.Framed r c') : P c'.machine := by
  have hrun := hP.run c.budget.toNat h
  cases hf with
  | completed hm =>
      rw [hm] at hrun
      exact hP.settle (hP.tick hrun)
  | abandoned hm =>
      rw [hm] at hrun
      exact hrun

/-- What no operation on a machine breaks, no request breaks. -/
theorem console (hP : Kept P) : Console.Kept fun c => P c.machine where
  frame {c} h := hP.framed h c.runFrame_framed
  machine op h := hP.perform op h
  reset h := hP.reset h

end Machine.Kept

end ChipEight
