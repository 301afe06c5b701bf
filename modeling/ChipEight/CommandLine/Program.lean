import ChipEight.CommandLine.Command
import ChipEight.CommandLine.Report
import ChipEight.Image
import ChipEight.Instruction.Assembly
import ChipEight.Settings.Reader

/-!
# The program

The whole program as a function: from its arguments, the files it can read and
a random stream to its exit code and what it prints. Settings are looked at
before the image is, and both before anything runs. The log, which has a line
when a cycle faults, is not part of what is printed here.
-/

namespace ChipEight.CommandLine

/-- How the program ended. -/
structure Outcome where
  /-- The exit code. -/
  exit : UInt32
  /-- What it printed. -/
  stdout : String
  /-- What it printed on the error stream, without the lines of the log. -/
  stderr : String
deriving DecidableEq

/-- The program ended with a complaint. -/
def failure (stdout message : String) : Outcome :=
  ⟨1, stdout, line ("❌ " ++ message)⟩

/-- What the flags say about settings. -/
def Timing.overrides (t : Timing) : Settings.Overrides :=
  { cyclesPerSecond := t.ips, timerHz := none, seed := t.seed.map some }

/-- The settings below the flags: those of the file, if there is one. -/
def baseSettings (files : FileReader) (t : Timing) : Except String Settings :=
  match t.config with
  | none => .ok .standard
  | some path =>
    match Settings.load files path with
    | .ok s => .ok s
    | .error e => .error ("Failed to load config " ++ path ++ ": " ++ e.message)

/-- The settings of a run: those of the file under those of the flags. The file has to be
acceptable by itself, and so have the settings with the flags put over it. -/
def chooseSettings (files : FileReader) (t : Timing) : Except String Settings :=
  match baseSettings files t with
  | .error e => .error e
  | .ok base =>
    match (base.override t.overrides).validate with
    | .ok () => .ok (base.override t.overrides)
    | .error e => .error e.message

/-- The image of a run. -/
def chooseImage (files : FileReader) (path : String) : Except String (List UInt8) :=
  match Image.read files path with
  | .ok image => .ok image
  | .error e => .error ("Failed to load ROM: " ++ e.message)

/-- The settings and the image of a run. -/
def choose (files : FileReader) (t : Timing) (path : String) :
    Except String (Settings × List UInt8) :=
  match chooseSettings files t with
  | .error e => .error e
  | .ok s =>
    match chooseImage files path with
    | .error e => .error e
    | .ok image => .ok (s, image)

/-- The console of a run, with its image loaded. -/
def prepare (s : Settings) (image : List UInt8) (entropy : KeyStream) : Except String Console :=
  match Console.new s entropy with
  | .error e => .error e.message
  | .ok c =>
    match c.load image with
    | (.error e, _) => .error ("Failed to load program: " ++ e.message)
    | (.ok (), c) => .ok c

/-- What is printed between the first line and the screen. -/
def body (o : RunOptions) (trace : List String) (ending : Ending) (c : Console) : String :=
  if o.json then snapshot c
  else (if o.trace then traceReport trace else "") ++ result c ++ waitNote ending

/-- What is printed of a run that has ended. -/
def conclude (o : RunOptions) (start : String) (trace : List String) (ending : Ending)
    (c : Console) : Outcome :=
  let stdout := start ++ body o trace ending c ++ (if o.screen then screenReport c else "")
  match ending with
  | .faulted e => ⟨1, stdout, faultReport e⟩
  | _ => ⟨0, stdout, ""⟩

/-- Whether the cycles of a run are to be traced. -/
def RunOptions.tracing (o : RunOptions) : Bool :=
  o.trace && !o.json

/-- Run a console, tracing it only if the trace is printed. -/
def runConsole (o : RunOptions) (c : Console) : List String × Ending × Console :=
  if o.tracing then
    let r := c.runHeadless (fun a i lines => Machine.traceLine a i :: lines) o.frames []
    (r.1.reverse, r.2)
  else ([], (c.runHeadless (fun _ _ s => s) o.frames ()).2)

/-- Run an image without a keyboard. If a cycle faults, the error stream has the report of the fault
and not the line that the log has for it. -/
def run (files : FileReader) (entropy : KeyStream) (path : String) (o : RunOptions) : Outcome :=
  match choose files o.timing path with
  | .error e => failure "" e
  | .ok (s, image) =>
    let start := if o.json then "" else opening path image
    match prepare s image entropy with
    | .error e => failure start e
    | .ok c =>
      let r := runConsole o c
      conclude o start r.1 r.2.1 r.2.2

/-- Play an image. The settings and the image are looked at; then a terminal is needed, and here
there is none. -/
def play (files : FileReader) (path : String) (t : Timing) : Outcome :=
  match choose files t path with
  | .error e => failure "" e
  | .ok _ => failure "" "Terminal error: No such device or address (os error 6)"

/-- List an image. -/
def list (files : FileReader) (path : String) : Outcome :=
  match chooseImage files path with
  | .error e => failure "" e
  | .ok image => ⟨0, line (Listing.text image Memory.programStart), ""⟩

/-- How the program is used. -/
def usage : String :=
  String.join (List.map line [
    "A Chip-8 virtual machine interpreter",
    "",
    "Usage: chip8-emu [COMMAND]",
    "",
    "Commands:",
    "  run <ROM>     Run a ROM headless for a fixed number of 60 Hz frames",
    "  play <ROM>    Play a ROM in the terminal",
    "  disasm <ROM>  Disassemble a ROM to readable text",
    "",
    "Options of run:",
    "  -f, --frames <FRAMES>  Number of frames to run [default: 600]",
    "  -t, --trace            Show trace output",
    "      --json             Print the final CPU state as JSON",
    "  -s, --screen           Print the final screen",
    "",
    "Options of run and play:",
    "  -c, --config <CONFIG>  JSON config file (cycles_per_second, timer_hz, seed)",
    "      --seed <SEED>      Seed for the random number instruction",
    "      --ips <IPS>        Instructions per second",
    "",
    "Options:",
    "  -h, --help     Print help",
    "  -V, --version  Print version"])

/-- What is said of arguments that cannot be understood. -/
def UsageError.message : UsageError → String
  | unknownOption text => "error: unknown option '" ++ text ++ "'"
  | missingValue => "error: an option lacks its value"
  | unexpectedValue text => "error: option '--" ++ text ++ "' takes no value"
  | repeated => "error: an option is given twice"
  | invalidValue text => "error: invalid value '" ++ text ++ "'"
  | unknownCommand text => "error: unknown command '" ++ text ++ "'"
  | missingOperand => "error: a ROM is required"
  | unexpectedOperand text => "error: unexpected argument '" ++ text ++ "'"

/-- Carry out a command. -/
def Command.execute (files : FileReader) (entropy : KeyStream) : Command → Outcome
  | overview => ⟨0, "Chip-8 Emulator v0.1.0\n\nUse --help for available commands\n", ""⟩
  | version => ⟨0, "chip8-emu 0.1.0\n", ""⟩
  | help => ⟨0, usage, ""⟩
  | run image options => CommandLine.run files entropy image options
  | play image timing => CommandLine.play files image timing
  | list image => CommandLine.list files image

/-- The program. -/
def program (files : FileReader) (entropy : KeyStream) (args : List String) : Outcome :=
  match Command.parse args with
  | .ok command => command.execute files entropy
  | .error e => ⟨2, "", line e.message⟩

/-- The files that a command reads. -/
def Command.paths : Command → List String
  | run image options => options.timing.config.toList ++ [image]
  | play image timing => timing.config.toList ++ [image]
  | list image => [image]
  | _ => []

end ChipEight.CommandLine
