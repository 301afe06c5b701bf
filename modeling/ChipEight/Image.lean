import ChipEight.Files
import ChipEight.Machine.Memory

/-!
# Program images

An image is the bytes of a program. It is admitted if it is not empty and fits
into memory above the load address.
-/

namespace ChipEight

/-- Why an image cannot be used. -/
inductive ImageError where
  /-- The file could not be read. -/
  | unreadable (path : String) (cause : FileError)
  /-- There is nothing in it. -/
  | empty
  /-- It is larger than the program space. -/
  | tooLarge (size : Nat)
deriving DecidableEq

/-- The reason in words. -/
def ImageError.message : ImageError → String
  | unreadable path cause => "I/O error: " ++ path ++ ": " ++ cause.message
  | empty => "ROM is empty"
  | tooLarge size =>
    "ROM size " ++ decimal size ++ " exceeds program space " ++ decimal Memory.programSpace

namespace Image

/-- Admit an image. -/
def validate (image : List UInt8) : Except ImageError Unit :=
  if image.isEmpty then .error .empty
  else if Memory.programSpace < image.length then .error (.tooLarge image.length)
  else .ok ()

/-- Read an image from a file, and admit it. -/
def read (files : FileReader) (path : String) : Except ImageError (List UInt8) :=
  match files path with
  | .error e => .error (.unreadable path e)
  | .ok image =>
    match validate image with
    | .error e => .error e
    | .ok () => .ok image

end Image

end ChipEight
