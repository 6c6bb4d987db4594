import XrBindings.Registry.Document
import XrBindings.Text.Column
import XrBindings.Text.Cut

/-!
# The report of a generation

How many declarations of each kind the bindings have, split by whether an extension introduces
them. Aliases are not counted.
-/

namespace XrBindings

open XrBindings.Text

/-- The declarations of a kind: all of them, those of the core, and those of extensions. -/
structure CategoryCount where
  total : Int
  core : Int
  ext : Int
  deriving DecidableEq, Repr

/-- The declarations of each kind. -/
structure GenerationCounts where
  baseTypes : CategoryCount
  enums : CategoryCount
  bitmasks : CategoryCount
  handles : CategoryCount
  structs : CategoryCount
  unions : CategoryCount
  functionPointers : CategoryCount
  commands : CategoryCount
  deriving DecidableEq, Repr

namespace Document

def count (d : Document) (names : List TypeName) : CategoryCount where
  total := names.length
  core := (names.filter d.isCore).length
  ext := (names.filter fun n ↦ !d.isCore n).length

/-- The enum of a name has values and no flags. -/
def isPlainEnum (d : Document) (name : String) : Bool :=
  !((d.enums.get? name).map (·.isBitmask)).getD false

/-- Count the declarations of each kind. -/
def counts (d : Document) : GenerationCounts :=
  let names (p : TypeDecl → Bool) : List TypeName :=
    (d.types.entries.filter fun e ↦ p e.2).map Prod.fst
  let ofKind (kind : String) := d.count (names (·.kind == kind))
  { baseTypes := ofKind "basetype"
    enums := d.count (names fun
      | .enum name => d.isPlainEnum name
      | _ => false)
    bitmasks := ofKind "bitmask"
    handles := ofKind "handle"
    structs := ofKind "struct"
    unions := ofKind "union"
    functionPointers := ofKind "funcpointer"
    commands := d.count (d.commands.keys.map some) }

end Document

/-- What the report tells. -/
structure GenerationSummary where
  sourceLabel : String
  outputPath : String
  counts : GenerationCounts
  lineCount : Int
  byteCount : Int
  deriving DecidableEq, Repr

/-- The row of a kind; the split is given where extensions take part. -/
def CategoryCount.row (label : String) (c : CategoryCount) : String :=
  let start := "    " ++ padRight 19 label ++ padLeft 6 (toString c.total)
  if c.ext > 0 then
    start ++ "  (" ++ toString c.core ++ " core + " ++ toString c.ext ++ " from extensions)"
  else start

/-- The text of the report. -/
def GenerationSummary.text (s : GenerationSummary) : String :=
  joinWith "\n" [
    "OpenXR bindings generated:", "",
    "  Source:     " ++ s.sourceLabel,
    "  Output:     " ++ s.outputPath, "",
    "  Types generated:",
    s.counts.baseTypes.row "Base types:",
    s.counts.enums.row "Enums:",
    s.counts.bitmasks.row "Bitmasks:",
    s.counts.handles.row "Handles:",
    s.counts.structs.row "Structs:",
    s.counts.unions.row "Unions:",
    s.counts.functionPointers.row "Function pointers:",
    s.counts.commands.row "Commands:", "",
    "  Total: " ++ grouped s.lineCount ++ " lines (" ++ grouped s.byteCount ++ " bytes)", "",
    "  Verify: zig ast-check " ++ s.outputPath, ""]

end XrBindings
