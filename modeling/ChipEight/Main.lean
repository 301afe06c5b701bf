import ChipEight.CommandLine.Program

/-!
# The executable

Reads the files that the command names, draws a key for the random stream, and
prints what `CommandLine.program` answers.
-/

namespace ChipEight.Executable

open CommandLine

/-- The reason why a file could not be read. -/
def fileError : IO.Error → FileError
  | .noFileOrDirectory .. => .notFound
  | .inappropriateType (some _) .. => .notDirectory
  | .inappropriateType none .. => .isDirectory
  | .permissionDenied .. => .other "Permission denied (os error 13)"
  | e => .other e.toString

/-- Read a file. -/
def readFile (path : String) : IO (Except FileError (List UInt8)) := do
  try
    let data ← IO.FS.readBinFile path
    return .ok data.toList
  catch e => return .error (fileError e)

/-- Read all files that a command names. -/
def readFiles (args : List String) : IO FileReader := do
  let paths := match Command.parse args with
    | .ok command => command.paths
    | .error _ => []
  let contents ← paths.mapM fun path => do return (path, ← readFile path)
  return fun path => (contents.lookup path).getD (.error .notFound)

/-- A stream whose key nobody knows. -/
def drawStream : IO KeyStream := do
  let bytes ← IO.getRandomBytes 32
  let word (k : Nat) : UInt32 :=
    (List.range 4).foldl (fun a j => a * 256 + (bytes[4 * k + j]?.getD 0).toUInt32) 0
  return ⟨Vector.ofFn fun k => word k.val, 0⟩

end ChipEight.Executable

/-- Run the program on its arguments. -/
def main (args : List String) : IO UInt32 := do
  let files ← ChipEight.Executable.readFiles args
  let entropy ← ChipEight.Executable.drawStream
  let outcome := ChipEight.CommandLine.program files entropy args
  IO.print outcome.stdout
  IO.eprint outcome.stderr
  return outcome.exit
