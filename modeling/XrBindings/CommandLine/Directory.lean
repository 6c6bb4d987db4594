import XrBindings.CommandLine.Path

/-!
# Files

What the program needs from a file system: to see whether there is something at a path, to read a
file, and to write one in a place that is made if it is not there. A directory held in memory
provides this as pure functions; everything that the program does can be stated about it.
-/

namespace XrBindings

/-- Access to files in a monad. -/
structure FileAccess (m : Type → Type) where
  /-- There is a file or a directory at a path. -/
  isThere : Path → m Bool
  /-- The bytes of a file, or the fault of the system. -/
  read : Path → m (Except String (List UInt8))
  /-- Write a file; the absolute path of what was written, or the fault of the system. -/
  write : Path → String → m (Except String String)

/-- A directory with everything in it. -/
structure Directory where
  /-- The path to the directory itself. -/
  location : String
  /-- The files, by the names of the directories that lead to them. -/
  files : List (List String × List UInt8)
  /-- Directories without files in them. -/
  emptyDirectories : List (List String) := []
  deriving Repr

namespace Directory

/-- What is found at a path. -/
inductive Found where
  | file (place : List String) (bytes : List UInt8)
  | directory (place : List String)
  | missing
  | notADirectory
  deriving Repr

/-- A place is a directory if it is the directory itself or leads to something. -/
def isDirectory (d : Directory) (place : List String) : Bool :=
  place.isEmpty || d.emptyDirectories.any (place.isPrefixOf ·)
    || d.files.any fun f ↦ place.isPrefixOf f.1 && f.1 != place

/-- Go from a place along the parts of a path. -/
def find (d : Directory) (place : List String) : List String → Found
  | [] => .directory place
  | part :: rest =>
    if part == ".." then d.find place.dropLast rest
    else
      let next := place ++ [part]
      match d.files.lookup next with
      | some bytes => if rest.isEmpty then .file next bytes else .notADirectory
      | none => if d.isDirectory next then d.find next rest else .missing

/-- Make the directories along the parts of a path; the place that is reached. -/
def makeAll (d : Directory) (place : List String) :
    List String → Except String (Directory × List String)
  | [] => .ok (d, place)
  | part :: rest =>
    if part == ".." then d.makeAll place.dropLast rest
    else
      let next := place ++ [part]
      if (d.files.lookup next).isSome then .error "[Errno 17] File exists"
      else if d.isDirectory next then d.makeAll next rest
      else { d with emptyDirectories := d.emptyDirectories ++ [next] }.makeAll next rest

/-- The absolute path of a place. -/
def absolute (d : Directory) (place : List String) : String :=
  Text.joinWith "/" (d.location :: place)

def putFile (d : Directory) (place : List String) (bytes : List UInt8) : Directory :=
  { d with files :=
      if (d.files.lookup place).isSome then
        d.files.map fun f ↦ if f.1 == place then (place, bytes) else f
      else d.files ++ [(place, bytes)] }

def readFile (d : Directory) (path : Path) : Except String (List UInt8) :=
  match d.find [] path.parts with
  | .file _ bytes => .ok bytes
  | .directory _ => .error "[Errno 21] Is a directory"
  | .missing => .error "[Errno 2] No such file or directory"
  | .notADirectory => .error "[Errno 20] Not a directory"

/-- Write a file, making its directory first; the directory made stays even if writing fails. -/
def writeFile (d : Directory) (path : Path) (text : String) : Except String String × Directory :=
  match d.makeAll [] path.parent.parts with
  | .error fault => (.error fault, d)
  | .ok (d, place) =>
    match path.parts.getLast? with
    | none => (.error "[Errno 21] Is a directory", d)
    | some name =>
      let target := if name == ".." then place.dropLast else place ++ [name]
      if d.isDirectory target then (.error "[Errno 21] Is a directory", d)
      else (.ok (d.absolute target), d.putFile target text.toUTF8.toList)

def isThere (d : Directory) (path : Path) : Bool :=
  match d.find [] path.parts with
  | .file _ _ => path.root.isEmpty
  | .directory place => path.root.isEmpty || place.isEmpty
  | .missing | .notADirectory => false

/-- Access to the files of a directory in memory. -/
def access : FileAccess (StateM Directory) where
  isThere path := return (← get).isThere path
  read path := return (← get).readFile path
  write path text := modifyGet fun d ↦ d.writeFile path text

end Directory

end XrBindings
