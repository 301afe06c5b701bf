/-!
# Files

What the program needs of a file system: the bytes of a file by its path, or
the reason why there are none, in the operating system's words. A `Directory`
is a working directory given as a value; paths are walked from it as the
system walks them.
-/

namespace ChipEight

/-- Why a file could not be read. -/
inductive FileError where
  /-- A component of the path does not exist. -/
  | notFound
  /-- The path goes on below a file. -/
  | notDirectory
  /-- The path leads to a directory. -/
  | isDirectory
  /-- A component of the path is longer than names can be. -/
  | nameTooLong
  /-- The path holds a zero character. -/
  | zeroInPath
  /-- Some other reason, in the system's words. -/
  | other (text : String)
deriving DecidableEq

/-- The reason in words. -/
def FileError.message : FileError → String
  | notFound => "No such file or directory (os error 2)"
  | notDirectory => "Not a directory (os error 20)"
  | isDirectory => "Is a directory (os error 21)"
  | nameTooLong => "File name too long (os error 36)"
  | zeroInPath => "file name contained an unexpected NUL byte"
  | other text => text

/-- How files are read: the bytes at a path, or the reason why there are none. -/
abbrev FileReader := String → Except FileError (List UInt8)

/-- A working directory: the bytes of each file by its path. -/
structure Directory where
  /-- The files, each path cut into its components. -/
  files : List (List String × List UInt8)

namespace Directory

/-- A directory that holds files by their paths. -/
def ofFiles (files : List (String × List UInt8)) : Directory :=
  ⟨files.map fun f => (f.1.splitOn "/", f.2)⟩

/-- A folder that a walk along a path can reach. -/
inductive Folder where
  /-- The folder that the components lead to from the working directory. -/
  | within (components : List String)
  /-- Above the working directory. -/
  | above

/-- The folder that holds a folder. The topmost one holds itself. -/
def Folder.parent : Folder → Folder
  | within [] | above => above
  | within components => within components.dropLast

/-- Where a walk along a path stands. -/
inductive Place where
  /-- In a folder. -/
  | folder (folder : Folder)
  /-- At a file. -/
  | file (data : List UInt8)

/-- Whether some file lies below a folder. -/
def holds (d : Directory) (components : List String) : Bool :=
  d.files.any fun f => components.length < f.1.length && f.1.take components.length == components

/-- Go to a name in a folder. Above the working directory no name is known. -/
def enter (d : Directory) (name : String) : Folder → Except FileError Place
  | .above => .error .notFound
  | .within components =>
    let path := components ++ [name]
    match d.files.find? fun f => f.1 == path with
    | some f => .ok (.file f.2)
    | none => if d.holds path then .ok (.folder (.within path)) else .error .notFound

/-- The most bytes that a name can have. -/
def maxNameSize : Nat := 255

/-- Walk on by one component of a path. Nothing lies below a file. In a folder an
empty component and a point stay, two points go up, and any other component is a
name, whose length is checked before it is looked up. -/
def walk (d : Directory) (place : Place) (name : String) : Except FileError Place :=
  match place with
  | .file _ => .error .notDirectory
  | .folder folder =>
    if name = "" ∨ name = "." then .ok place
    else if name = ".." then .ok (.folder folder.parent)
    else if maxNameSize < name.utf8ByteSize then .error .nameTooLong
    else d.enter name folder

/-- Walk along all components of a path. -/
def walkAll (d : Directory) (place : Place) : List String → Except FileError Place
  | [] => .ok place
  | name :: rest =>
    match d.walk place name with
    | .ok place => d.walkAll place rest
    | .error e => .error e

/-- The bytes of the file that a path leads to. -/
def read (d : Directory) : FileReader := fun path =>
  if path.toList.contains '\x00' then .error .zeroInPath
  else if path = "" then .error .notFound
  else if 4096 ≤ path.utf8ByteSize then .error .nameTooLong
  else
    let start := if path.toList.head? = some '/' then Folder.above else .within []
    match d.walkAll (.folder start) (path.splitOn "/") with
    | .ok (.file data) => .ok data
    | .ok _ => .error .isDirectory
    | .error e => .error e

end Directory

end ChipEight
