import ChipEight.CommandLine.Arguments

/-!
# Commands

What the program can be asked to do: run an image without a keyboard, play it
on a terminal, list it, or tell about itself.
-/

namespace ChipEight.CommandLine

/-- What the command line says about settings. -/
structure Timing where
  /-- The settings file, if any. -/
  config : Option String
  /-- The seed, if given. -/
  seed : Option UInt64
  /-- The instructions in a second, if given. -/
  ips : Option UInt32
deriving DecidableEq

/-- How to run without a keyboard. -/
structure RunOptions where
  /-- The most frames to run. -/
  frames : Nat
  /-- Whether to print a trace. -/
  trace : Bool
  /-- Whether to print the final state as JSON. -/
  json : Bool
  /-- Whether to print the final screen. -/
  screen : Bool
  /-- What is said about settings. -/
  timing : Timing
deriving DecidableEq

/-- What to do. -/
inductive Command where
  /-- Say what the program is. -/
  | overview
  /-- Say which version it is. -/
  | version
  /-- Say how it is used. -/
  | help
  /-- Run an image without a keyboard. -/
  | run (image : String) (options : RunOptions)
  /-- Play an image on a terminal. -/
  | play (image : String) (timing : Timing)
  /-- List an image. -/
  | list (image : String)
deriving DecidableEq

/-- The options that `run` and `play` share. -/
def timingForms : List OptionForm := [
  ⟨.config, "config", some 'c', true⟩,
  ⟨.seed, "seed", none, true⟩,
  ⟨.ips, "ips", none, true⟩,
  ⟨.help, "help", some 'h', false⟩]

/-- The options of `run`. -/
def runForms : List OptionForm := [
  ⟨.frames, "frames", some 'f', true⟩,
  ⟨.trace, "trace", some 't', false⟩,
  ⟨.json, "json", none, false⟩,
  ⟨.screen, "screen", some 's', false⟩] ++ timingForms

/-- The options of `disasm`. -/
def listForms : List OptionForm := [
  ⟨.help, "help", some 'h', false⟩]

/-- What was gathered from the items of a command. -/
structure Gathered where
  /-- The options given so far. -/
  seen : List OptionKey
  /-- The program image. -/
  image : Option String
  /-- The other values. -/
  options : RunOptions

/-- Nothing was given: six hundred frames, and no output but the result. -/
def Gathered.nothing : Gathered :=
  ⟨[], none, ⟨600, false, false, false, ⟨none, none, none⟩⟩⟩

namespace Gathered

/-- Note that an option was given, if it was not given before. -/
def note (g : Gathered) (key : OptionKey) : Except UsageError Gathered :=
  if key ∈ g.seen then .error .repeated else .ok { g with seen := key :: g.seen }

/-- Take an option without a value. -/
def takeFlag (g : Gathered) : OptionKey → Gathered
  | .trace => { g with options.trace := true }
  | .json => { g with options.json := true }
  | .screen => { g with options.screen := true }
  | _ => g

/-- Take an option with a value. -/
def takeValue (g : Gathered) (key : OptionKey) (value : String) : Except UsageError Gathered :=
  match key with
  | .frames =>
    match natural? UInt64.size value.toList with
    | some n => .ok { g with options.frames := n }
    | none => .error (.invalidValue value)
  | .seed =>
    match natural? UInt64.size value.toList with
    | some n => .ok { g with options.timing.seed := some (UInt64.ofNat n) }
    | none => .error (.invalidValue value)
  | .ips =>
    match naturalOrMinusZero? UInt32.size value.toList with
    | some n => .ok { g with options.timing.ips := some (UInt32.ofNat n) }
    | none => .error (.invalidValue value)
  | .config => .ok { g with options.timing.config := some value }
  | _ => .ok g

/-- Take an item. -/
def takeItem (g : Gathered) : Item → Except UsageError Gathered
  | .flag key =>
    match g.note key with
    | .ok g => .ok (g.takeFlag key)
    | .error e => .error e
  | .option key value =>
    match g.note key with
    | .ok g => g.takeValue key value
    | .error e => .error e
  | .operand text =>
    match g.image with
    | none => .ok { g with image := some text }
    | some _ => .error (.unexpectedOperand text)

/-- Take all items up to a request for the usage; `none` stands for such a request. -/
def takeAll (g : Gathered) : List Item → Except UsageError (Option Gathered)
  | [] => .ok (some g)
  | i :: rest =>
    if i.asksHelp then .ok none
    else
      match g.takeItem i with
      | .ok g => g.takeAll rest
      | .error e => .error e

end Gathered

/-- Read the arguments of a command that has certain options. -/
def readCommand (forms : List OptionForm) (make : String → RunOptions → Command)
    (args : List String) : Except UsageError Command :=
  match items forms none args with
  | .error e => .error e
  | .ok found =>
    match Gathered.nothing.takeAll found with
    | .error e => .error e
    | .ok none => .ok .help
    | .ok (some g) =>
      match g.image with
      | some image => .ok (make image g.options)
      | none => .error .missingOperand

/-- The names of the commands. -/
def commandNames : List String :=
  ["run", "play", "disasm", "help"]

/-- Read an option that stands before any command. -/
def readTopOption (arg : String) : Except UsageError Command :=
  match arg.toList with
  | ['-', '-', 'h', 'e', 'l', 'p'] => .ok .help
  | ['-', '-', 'v', 'e', 'r', 's', 'i', 'o', 'n'] => .ok .version
  | '-' :: 'h' :: _ => .ok .help
  | '-' :: 'V' :: _ => .ok .version
  | _ => .error (if looksLikeOption arg then .unknownOption arg else .unknownCommand arg)

/-- Read the arguments of the program. -/
def Command.parse : List String → Except UsageError Command
  | [] => .ok .overview
  | ["--"] => .ok .overview
  | "run" :: args => readCommand runForms .run args
  | "play" :: args => readCommand timingForms (fun image o => .play image o.timing) args
  | "disasm" :: args => readCommand listForms (fun image _ => .list image) args
  | ["help"] => .ok .help
  | ["help", name] => if name ∈ commandNames then .ok .help else .error (.unknownCommand name)
  | arg :: _ => readTopOption arg

end ChipEight.CommandLine
