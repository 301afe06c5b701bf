import ChipEight.Files
import ChipEight.Json.Reader
import ChipEight.Settings.Basic

/-!
# Settings as JSON and in files

Settings are an object with the members `cycles_per_second`, `timer_hz` and
`seed`, in any order; what is missing keeps its default, and other members
are passed over whatever they hold. A known member given twice is an error.
An array of up to three values gives the same three in that order. Rates and
seeds are written as plain natural numbers, and a seed may be `null`.

A settings file is UTF-8 text that spells settings. Settings are accepted or
refused as they stand in the file.
-/

namespace ChipEight

/-! ## Settings as JSON -/

/-- Why a settings file cannot be used. -/
inductive SettingsFileError where
  /-- The text is not a spelling of settings. -/
  | malformed
  /-- The settings are refused. -/
  | refused (cause : SettingsError)
deriving DecidableEq

namespace Json

/-- A number of 32 bits. -/
def uint32? (v : Json) : Option UInt32 :=
  (v.natural? UInt32.size).map UInt32.ofNat

/-- A number of 64 bits, or `null` for no number. -/
def optionalUInt64? : Json → Option (Option UInt64)
  | null => some none
  | v => (v.natural? UInt64.size).map fun n => some (UInt64.ofNat n)

end Json

namespace Settings

namespace Overrides

/-- Take a rate that was not given before. -/
def giveCycles (o : Overrides) (v : Json) : Option Overrides :=
  match o.cyclesPerSecond with
  | some _ => none
  | none => v.uint32?.map fun n => { o with cyclesPerSecond := some n }

/-- Take a tick rate that was not given before. -/
def giveTimer (o : Overrides) (v : Json) : Option Overrides :=
  match o.timerHz with
  | some _ => none
  | none => v.uint32?.map fun n => { o with timerHz := some n }

/-- Take a seed that was not given before. -/
def giveSeed (o : Overrides) (v : Json) : Option Overrides :=
  match o.seed with
  | some _ => none
  | none => v.optionalUInt64?.map fun s => { o with seed := some s }

/-- Take a member of an object. -/
def giveMember (o : Overrides) (key : List Char) (v : Json) : Option Overrides :=
  match Json.unescape? key with
  | none => none
  | some name =>
    if name = "cycles_per_second".toList then o.giveCycles v
    else if name = "timer_hz".toList then o.giveTimer v
    else if name = "seed".toList then o.giveSeed v
    else some o

/-- Take the members of an object in order. -/
def giveMembers (o : Overrides) : List (List Char × Json) → Option Overrides
  | [] => some o
  | (key, v) :: rest =>
    match o.giveMember key v with
    | some o => o.giveMembers rest
    | none => none

/-- The values that a JSON value gives. -/
def ofJson? : Json → Option Overrides
  | .object members => nothing.giveMembers members
  | .array [] => some nothing
  | .array [cps] => nothing.giveCycles cps
  | .array [cps, hz] => (nothing.giveCycles cps).bind fun o => o.giveTimer hz
  | .array [cps, hz, seed] =>
    ((nothing.giveCycles cps).bind fun o => o.giveTimer hz).bind fun o => o.giveSeed seed
  | _ => none

end Overrides

/-- Read settings, and accept them. -/
def parse (text : String) : Except SettingsFileError Settings :=
  match (Json.parse? text).bind Overrides.ofJson? with
  | none => .error .malformed
  | some o =>
    match (standard.override o).validate with
    | .ok () => .ok (standard.override o)
    | .error e => .error (.refused e)

/-- Settings as an object with all three members. -/
def toJson (s : Settings) : Json :=
  .record [
    ("cycles_per_second", .ofNat s.cyclesPerSecond.toNat),
    ("timer_hz", .ofNat s.timerHz.toNat),
    ("seed", match s.seed with
      | some n => .ofNat n.toNat
      | none => .null)]

end Settings

/-! ## Settings files -/

/-- Why settings could not be loaded. -/
inductive SettingsLoadError where
  /-- The file could not be read. -/
  | unreadable (cause : FileError)
  /-- The file is not UTF-8. -/
  | notText
  /-- The text cannot be used. -/
  | content (cause : SettingsFileError)
deriving DecidableEq

/-- The reason in words. What is wrong with a malformed text is not told. -/
def SettingsLoadError.message : SettingsLoadError → String
  | unreadable cause => "I/O error: " ++ cause.message
  | notText => "I/O error: stream did not contain valid UTF-8"
  | content .malformed => "config parse error: "
  | content (.refused cause) => cause.message

namespace Settings

/-- Read settings from a file, and accept them. -/
def load (files : FileReader) (path : String) : Except SettingsLoadError Settings :=
  match files path with
  | .error e => .error (.unreadable e)
  | .ok data =>
    match String.fromUTF8? (ByteArray.mk data.toArray) with
    | none => .error .notText
    | some text =>
      match parse text with
      | .error e => .error (.content e)
      | .ok s => .ok s

end Settings

end ChipEight
