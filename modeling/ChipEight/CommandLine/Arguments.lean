import ChipEight.Text

/-!
# Arguments

The arguments of a command are cut into options and operands. An option is
written in full after two hyphens, or as one letter after one; letters may be
bunched. The value of an option follows it as the next argument, after an
equals sign, or right after its letter, and a separate value must not look
like an option. Two hyphens alone end the options, and one hyphen alone is an
operand. No option may be given twice.
-/

namespace ChipEight.CommandLine

/-- What an option is about. -/
inductive OptionKey where
  /-- Frames to run. -/
  | frames
  /-- Print a trace. -/
  | trace
  /-- Print the final state as JSON. -/
  | json
  /-- Print the final screen. -/
  | screen
  /-- A settings file. -/
  | config
  /-- The seed of the random stream. -/
  | seed
  /-- Instructions in a second. -/
  | ips
  /-- Print the usage. -/
  | help
deriving DecidableEq

/-- How an option is written. -/
structure OptionForm where
  /-- What it is about. -/
  key : OptionKey
  /-- Its full name. -/
  long : String
  /-- Its letter, if it has one. -/
  short : Option Char
  /-- Whether it takes a value. -/
  takesValue : Bool

/-- Why arguments cannot be understood. -/
inductive UsageError where
  /-- There is no such option. -/
  | unknownOption (text : String)
  /-- An option needs a value. -/
  | missingValue
  /-- An option takes no value. -/
  | unexpectedValue (text : String)
  /-- An option was given twice. -/
  | repeated
  /-- A value is not of the right kind. -/
  | invalidValue (text : String)
  /-- There is no such command. -/
  | unknownCommand (text : String)
  /-- There is no program image. -/
  | missingOperand
  /-- There is an operand too many. -/
  | unexpectedOperand (text : String)

/-- A piece of the arguments. -/
inductive Item where
  /-- An option with a value. -/
  | option (key : OptionKey) (value : String)
  /-- An option without a value. -/
  | flag (key : OptionKey)
  /-- An operand. -/
  | operand (text : String)

/-- Whether an argument looks like an option. -/
def looksLikeOption (arg : String) : Bool :=
  match arg.toList with
  | '-' :: _ :: _ => true
  | _ => false

/-- Read an option written in full, without its hyphens: its items, and the option whose value
is still to come. -/
def readLong (forms : List OptionForm) (text : List Char) :
    Except UsageError (List Item × Option OptionKey) :=
  let name := String.ofList (text.takeWhile (· ≠ '='))
  match forms.find? (·.long = name), text.dropWhile (· ≠ '=') with
  | none, _ => .error (.unknownOption name)
  | some f, [] => if f.takesValue then .ok ([], some f.key) else .ok ([.flag f.key], none)
  | some f, _ :: value =>
    if f.takesValue then .ok ([.option f.key (String.ofList value)], none)
    else .error (.unexpectedValue name)

/-- The value that follows the letter of an option, without its equals sign. -/
def attached : List Char → List Char
  | '=' :: value => value
  | value => value

/-- Read a bunch of letters. A letter whose option takes a value has the rest of the bunch for
its value, if there is any. -/
def readShort (forms : List OptionForm) : List Char →
    Except UsageError (List Item × Option OptionKey)
  | [] => .ok ([], none)
  | c :: rest =>
    match forms.find? (·.short = some c) with
    | none => .error (.unknownOption (String.singleton c))
    | some f =>
      if f.takesValue then
        if rest.isEmpty then .ok ([], some f.key)
        else .ok ([.option f.key (String.ofList (attached rest))], none)
      else if f.key = .help then .ok ([.flag .help], none)
      else
        match readShort forms rest with
        | .ok (items, pending) => .ok (.flag f.key :: items, pending)
        | .error e => .error e

/-- Read an argument that is not the value of an option before it. -/
def readArgument (forms : List OptionForm) (arg : String) :
    Except UsageError (List Item × Option OptionKey) :=
  match arg.toList with
  | '-' :: '-' :: text => readLong forms text
  | '-' :: c :: rest => readShort forms (c :: rest)
  | _ => .ok ([.operand arg], none)

/-- Whether an item asks for the usage. -/
def Item.asksHelp : Item → Bool
  | flag .help => true
  | _ => false

/-- Cut arguments into items. What comes after a request for the usage is not looked at. -/
def items (forms : List OptionForm) :
    Option OptionKey → List String → Except UsageError (List Item)
  | none, [] => .ok []
  | some _, [] => .error .missingValue
  | some key, arg :: rest =>
    if looksLikeOption arg then .error .missingValue
    else
      match items forms none rest with
      | .ok more => .ok (.option key arg :: more)
      | .error e => .error e
  | none, arg :: rest =>
    if arg = "--" then .ok (rest.map .operand)
    else
      match readArgument forms arg with
      | .error e => .error e
      | .ok (found, pending) =>
        if found.any Item.asksHelp then .ok found
        else
          match items forms pending rest with
          | .ok more => .ok (found ++ more)
          | .error e => .error e

/-- A number in decimal digits, which a plus sign may precede, below a limit. -/
def natural? (limit : Nat) (text : List Char) : Option Nat :=
  let digits := match text with
    | '+' :: rest => rest
    | _ => text
  if digits.isEmpty then none else decimalBelow? limit digits

/-- A number as `natural?` reads it, or zero after a minus sign. -/
def naturalOrMinusZero? (limit : Nat) (text : List Char) : Option Nat :=
  match text with
  | '-' :: digits => if !digits.isEmpty && digits.all (· = '0') then some 0 else none
  | _ => natural? limit text

end ChipEight.CommandLine
