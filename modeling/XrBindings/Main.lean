import XrBindings.CommandLine.Run

/-!
# The command

The program on the files of the system.
-/

namespace XrBindings

/-- Do something with files; a fault of the system becomes its text. -/
def faultOf {α : Type} (act : IO α) : IO (Except String α) := do
  try return .ok (← act)
  catch e => return .error (toString e)

/-- Access to the files of the system. -/
def systemAccess : FileAccess IO where
  isThere path := do
    try
      let _ ← IO.FS.realPath path.text
      return true
    catch _ => return false
  read path := faultOf do return (← IO.FS.readBinFile path.text).toList
  write path text := faultOf do
    IO.FS.createDirAll path.parent.text
    IO.FS.writeFile path.text text
    return toString (← IO.FS.realPath path.text)

end XrBindings

open XrBindings in
/-- Run the program and print what it leaves behind. -/
def main (words : List String) : IO UInt32 := do
  match ← run systemAccess words with
  | .ok outcome =>
    IO.print outcome.out
    IO.eprint outcome.err
    return outcome.exitCode.toUInt32
  | .error failure =>
    IO.eprintln ((failure.message?).getD "the registry cannot be processed")
    return 1
