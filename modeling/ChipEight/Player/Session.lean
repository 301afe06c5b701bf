import ChipEight.Console
import ChipEight.Image

/-!
# A session at the keyboard

A session plays a program image on a console: it runs frames unless it is
paused or has halted, turns key events into keypad keys and commands, and
keeps a line of status. Times are nanoseconds after some fixed start.

Terminals that do not report releases are helped out: a key counts as held for
a while after its last press, and `releaseExpired` then lets it go.

The keypad lies on the right-hand block of the keyboard:

```text
 keypad        keyboard
 1 2 3 C       7 8 9 0
 4 5 6 D       U I O P
 7 8 9 E       J K L ;
 A 0 B F       M , . /
```
-/

namespace ChipEight

/-! ## The keyboard -/

namespace Keyboard

/-- The characters that stand for keys of the keypad. -/
def bindings : List (Char × UInt8) := [
  ('7', 0x1), ('8', 0x2), ('9', 0x3), ('0', 0xC),
  ('u', 0x4), ('i', 0x5), ('o', 0x6), ('p', 0xD),
  ('j', 0x7), ('k', 0x8), ('l', 0x9), (';', 0xE),
  ('m', 0xA), (',', 0x0), ('.', 0xB), ('/', 0xF)]

/-- The key that a character stands for. The case of the letters `A` to `Z` does not matter. -/
def key? (c : Char) : Option UInt8 :=
  (bindings.find? fun b => b.1 = c.toLower).map (·.2)

/-- The character that stands for a key. -/
def char? (key : UInt8) : Option Char :=
  (bindings.find? fun b => b.2 = key).map (·.1)

end Keyboard

/-! ## The session -/

/-- What was typed. -/
inductive KeyCode where
  /-- A character. -/
  | char (c : Char)
  /-- The escape key. -/
  | escape
  /-- The tabulator key. -/
  | tab
  /-- Some other key, which means nothing here. -/
  | unbound
deriving DecidableEq

/-- What happened to a key of the keyboard. -/
inductive KeyEvent where
  /-- It went down. -/
  | press
  /-- It stayed down and was reported again. -/
  | again
  /-- It went up. -/
  | release
deriving DecidableEq

/-- The state of a session. -/
structure Session where
  /-- The console that plays. -/
  console : Console
  /-- The image that a reset loads. -/
  image : List UInt8
  /-- Whether the console stands still until told otherwise. -/
  paused : Bool
  /-- Whether the machine has faulted. -/
  halted : Bool
  /-- Whether the debugger is shown. -/
  showDebug : Bool
  /-- Whether the session is to end. -/
  quit : Bool
  /-- The line of status. -/
  status : String
  /-- Whether the terminal reports releases. -/
  releaseEvents : Bool
  /-- When each key of the keypad that is held was last pressed, in nanoseconds. -/
  held : Vector (Option Nat) 16
deriving DecidableEq

/-- Why a session could not start. -/
inductive SessionError where
  /-- The settings are refused. -/
  | settings (cause : SettingsError)
  /-- The image does not fit. -/
  | image (cause : MemoryError)
deriving DecidableEq

namespace Session

/-- How long a key stays down after a press: 150 milliseconds. -/
def hold : Nat := 150000000

/-- No key is held. -/
def nothingHeld : Vector (Option Nat) 16 :=
  Vector.replicate 16 none

/-- A session that has loaded an image. -/
def new (s : Settings) (image : List UInt8) (entropy : KeyStream) :
    Except SessionError Session :=
  match Console.new s entropy with
  | .error e => .error (.settings e)
  | .ok console =>
    match console.load image with
    | (.error e, _) => .error (.image e)
    | (.ok (), console) =>
      .ok {
        console, image, paused := false, halted := false, showDebug := true, quit := false
        status := "Running. Space: pause, n: step, x: reset, Tab: debug, q: quit."
        releaseEvents := false, held := nothingHeld }

/-- Press or release a key of the keypad. A number without a key is ignored. -/
def setKey (s : Session) (key : UInt8) (down : Bool) : Session :=
  match s.console.setKey key down with
  | .ok console => { s with console }
  | .error _ => s

/-- Note when a key was pressed, or that it is not held. -/
def setHeld (s : Session) (key : UInt8) (since : Option Nat) : Session :=
  { s with held := s.held.setIfInBounds key.toNat since }

/-- Stop after a fault. -/
def halt (s : Session) (e : Fault) : Session :=
  { s with halted := true, status := "Halted: " ++ e.message }

/-- Run a frame unless paused or halted. -/
def tick (s : Session) : Session :=
  if s.paused || s.halted then s
  else
    match s.console.runFrame with
    | (.ok _, console) => { s with console }
    | (.error e, console) => { s with console }.halt e

/-- Execute a single instruction unless halted. -/
def step (s : Session) : Session :=
  if s.halted then s
  else
    let address := s.console.machine.instructionAddress
    match s.console.machine.cycle with
    | (.ok i, machine) =>
      { s with
        console := s.console.withMachine machine
        status := "PC=" ++ Hex.address address.toNat ++ ": " ++ i.assembly }
    | (.error e, machine) => { s with console := s.console.withMachine machine }.halt e

/-- Pause, or go on. -/
def togglePause (s : Session) : Session :=
  { s with paused := !s.paused, status := if s.paused then "Running." else "Paused." }

/-- Restart the console with the image. If the image does not fit, the console stays reset and
only the status says so. -/
def reset (s : Session) : Session :=
  match s.console.restart s.image with
  | (.ok (), console) =>
    { s with console, halted := false, held := nothingHeld, status := "Reset." }
  | (.error e, console) => { s with console, status := "Reset failed: " ++ e.message }

/-- Carry out the command that a key stands for, if any. -/
def command (s : Session) : KeyCode → Session
  | .char 'q' | .escape => { s with quit := true }
  | .char ' ' => s.togglePause
  | .char 'n' => { s with paused := true }.step
  | .char 'x' => s.reset
  | .tab => { s with showDebug := !s.showDebug }
  | _ => s

/-- The key of the keypad that was meant, if any. -/
def keypadKey? : KeyCode → Option UInt8
  | .char c => Keyboard.key? c
  | _ => none

/-- Handle a key event that comes at some time. Keys of the keypad go down and up; other keys are
commands when they are pressed. -/
def handleKey (s : Session) (code : KeyCode) (event : KeyEvent) (now : Nat) : Session :=
  match keypadKey? code with
  | some key =>
    if event = .release then (s.setHeld key none).setKey key false
    else (s.setHeld key (some now)).setKey key true
  | none => if event = .press then s.command code else s

/-- Let go of a key that was held for long enough. -/
def expire (now : Nat) (s : Session) (key : Nat) : Session :=
  match s.held[key]?.getD none with
  | some since =>
    if hold ≤ now - since then (s.setHeld (UInt8.ofNat key) none).setKey (UInt8.ofNat key) false
    else s
  | none => s

/-- Let go of all keys held for long enough, unless the terminal reports releases. -/
def releaseExpired (s : Session) (now : Nat) : Session :=
  if s.releaseEvents then s else (List.range 16).foldl (expire now) s

/-- A row of the debugger's listing. -/
structure CodeRow where
  /-- The address of the word. -/
  address : Nat
  /-- The digits of the word and its assembly text. -/
  text : String
  /-- Whether the next cycle executes this word. -/
  current : Bool
deriving DecidableEq

/-- The row of the word at an address, if it lies in memory. -/
def codeRow? (m : Machine) (address : Nat) : Option CodeRow :=
  if address + 1 < Memory.size then
    let w := Word.ofBytes (m.memory.byte address) (m.memory.byte (address + 1))
    some {
      address
      text := w.text ++ "  " ++ w.assembly
      current := address = m.instructionAddress.toNat }
  else none

/-- The words around the current instruction, at most so many, half of them before it. -/
def disassembly (s : Session) (rows : Nat) : List CodeRow :=
  let m := s.console.machine
  let start := m.instructionAddress.toNat - rows / 2 * 2
  (List.range rows).filterMap fun k => codeRow? m (start + k * 2)

end Session

end ChipEight
