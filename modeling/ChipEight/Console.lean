import ChipEight.Machine.Report
import ChipEight.Settings.Basic

/-!
# The console

A machine that runs in frames. A frame is a number of cycles, then one tick of
the timers; a front end runs frames at the tick rate and repaints when a frame
says so. If a cycle faults, the frame ends there: the timers do not tick, the
frame is not counted and the repaint mark stays, but the frame's cycles count
as handed out.

When the rates do not divide evenly, the remainder is carried from frame to
frame, and a frame gets one cycle more whenever a whole tick's worth has
gathered. So no second of frames is ever short of a cycle.

A console that nobody sits at runs for a number of frames. It stops early when
a frame faults, and also when a frame ends blocked on a key, since nothing
will ever press one.
-/

namespace ChipEight

/-! ## Pacing -/

namespace Settings

/-- What has gathered when the next frame starts, in units of one cycle over the tick rate. -/
def gathered (s : Settings) (carry : UInt32) : UInt64 :=
  carry.toUInt64 + s.cyclesPerSecond.toUInt64 % s.timerHz.toUInt64

/-- The cycles of the next frame. -/
def frameBudget (s : Settings) (carry : UInt32) : UInt32 :=
  s.cyclesPerTick + (s.gathered carry / s.timerHz.toUInt64).toUInt32

/-- What is carried on from the next frame. -/
def nextCarry (s : Settings) (carry : UInt32) : UInt32 :=
  (s.gathered carry % s.timerHz.toUInt64).toUInt32

end Settings

/-! ## Frames -/

/-- What happened in a frame. -/
structure FrameReport where
  /-- How many cycles were executed. -/
  cycles : UInt32
  /-- Whether the screen has to be repainted. -/
  dirty : Bool
  /-- Whether the tone plays after the tick. -/
  sound : Bool
  /-- Whether the machine ended the frame blocked on a key. -/
  awaitingKey : Bool
deriving DecidableEq

/-- A machine with its rates. -/
structure Console where
  /-- The machine. -/
  machine : Machine
  /-- The rates and the seed. -/
  settings : Settings
  /-- How many frames were completed. -/
  frames : Nat
  /-- What is carried on to the next frame, below the tick rate. -/
  carry : UInt32
deriving DecidableEq

namespace Console

/-- The machine that settings ask for; without a seed it draws on the stream given. -/
def freshMachine (s : Settings) (entropy : KeyStream) : Machine :=
  match s.seed with
  | some seed => .ofSeed seed
  | none => .powerOn entropy none

/-- A console with a fresh machine, if the settings are accepted. -/
def new (s : Settings) (entropy : KeyStream) : Except SettingsError Console :=
  match s.validate with
  | .ok () => .ok { machine := freshMachine s entropy, settings := s, frames := 0, carry := 0 }
  | .error e => .error e

/-- The console with another machine. -/
def withMachine (c : Console) (machine : Machine) : Console :=
  { c with machine }

/-- Load a program image: whether it was refused, and the console after it. -/
def load (c : Console) (image : List UInt8) : Except MemoryError Unit × Console :=
  let r := c.machine.load image
  (r.1, c.withMachine r.2)

/-- Press or release a key. -/
def setKey (c : Console) (key : UInt8) (down : Bool) : Except NoSuchKey Console :=
  match c.machine.setKey key down with
  | .ok machine => .ok (c.withMachine machine)
  | .error e => .error e

/-- The cycles of the next frame. -/
def budget (c : Console) : UInt32 :=
  c.settings.frameBudget c.carry

/-- The console after a frame whose cycles all succeeded and left a machine. -/
def complete (c : Console) (machine : Machine) : Console :=
  { c with
    machine := machine.tick.settle
    frames := c.frames + 1
    carry := c.settings.nextCarry c.carry }

/-- The console after a frame that faulted and left a machine. -/
def abandon (c : Console) (machine : Machine) : Console :=
  { c with machine, carry := c.settings.nextCarry c.carry }

/-- The report of a frame whose cycles all succeeded and left a machine. -/
def report (c : Console) (machine : Machine) : FrameReport :=
  { cycles := c.budget
    dirty := machine.screen.dirty
    sound := machine.tick.registers.sounding
    awaitingKey := machine.isAwaitingKey }

/-- Run a frame. An observer sees the address and the instruction of every cycle that
succeeds. -/
def runFrameWith {σ : Type} (observe : UInt16 → Instruction → σ → σ) (s : σ) (c : Console) :
    σ × Except Fault FrameReport × Console :=
  match Machine.runWith observe c.budget.toNat s c.machine with
  | (s, none, machine) => (s, .ok (c.report machine), c.complete machine)
  | (s, some e, machine) => (s, .error e, c.abandon machine)

/-- Run a frame. -/
def runFrame (c : Console) : Except Fault FrameReport × Console :=
  (runFrameWith (fun _ _ s => s) () c).2

/-- Run a frame and trace its cycles. -/
def traceFrame (c : Console) : List String × Except Fault FrameReport × Console :=
  let r := runFrameWith (fun address i lines => Machine.traceLine address i :: lines) [] c
  (r.1.reverse, r.2)

/-- Run `n` frames, or up to the first that faults, and give the reports of those completed. -/
def frameReports : Nat → Console → Except Fault (List FrameReport) × Console
  | 0, c => (.ok [], c)
  | n + 1, c =>
    match c.runFrame with
    | (.error e, c) => (.error e, c)
    | (.ok r, c) =>
      match frameReports n c with
      | (.ok rs, c) => (.ok (r :: rs), c)
      | (.error e, c) => (.error e, c)

/-- Run `n` frames, or up to the first that faults. -/
def advance : Nat → Console → Option Fault × Console
  | 0, c => (none, c)
  | n + 1, c =>
    match c.runFrame with
    | (.error e, c) => (some e, c)
    | (.ok _, c) => advance n c

/-- Run `n` frames, and count the cycles executed unless one faults. -/
def runFrames (c : Console) (n : Nat) : Except Fault Nat × Console :=
  match advance n c with
  | (none, c') => (.ok (c'.machine.cycles - c.machine.cycles), c')
  | (some e, c') => (.error e, c')

/-- The console with its machine reset, no frame counted and nothing carried. -/
def reset (c : Console) : Console :=
  { c with machine := c.machine.reset, frames := 0, carry := 0 }

/-- Reset, then load an image. The reset stands even if the image does not fit. -/
def restart (c : Console) (image : List UInt8) : Except MemoryError Unit × Console :=
  c.reset.load image

end Console

/-! ## Running without a keyboard -/

/-- How a run without a keyboard ended. -/
inductive Ending where
  /-- All frames were run. -/
  | finished
  /-- The machine waits for a key. -/
  | blocked
  /-- A cycle faulted. -/
  | faulted (e : Fault)
deriving DecidableEq

/-- Run for at most `n` frames. An observer sees the address and the instruction of every cycle
that succeeds. -/
def Console.runHeadless {σ : Type} (observe : UInt16 → Instruction → σ → σ) :
    Nat → σ → Console → σ × Ending × Console
  | 0, s, c => (s, .finished, c)
  | n + 1, s, c =>
    match runFrameWith observe s c with
    | (s, .error e, c) => (s, .faulted e, c)
    | (s, .ok r, c) => if r.awaitingKey then (s, .blocked, c) else runHeadless observe n s c

end ChipEight
