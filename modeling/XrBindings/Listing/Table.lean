import XrBindings.Listing.Extension
import XrBindings.Number.IntegerText
import XrBindings.Text.Column

/-!
# Listings of extensions

The two listings: a table with a row for each extension, and everything about one extension. Names
and types are padded to a common width, and nothing follows the last visible character of a row.
-/

namespace XrBindings

open XrBindings.Text XrBindings.Number

def widest (texts : List String) : Nat := (texts.map String.length).foldl max 0

/-- What is said after the columns of a row: where an extension went, or what it needs. -/
def ExtensionSummary.annotation (s : ExtensionSummary) : String :=
  match s.promotedTo with
  | some target => "promoted: " ++ target
  | none =>
    if s.depends.isEmpty then ""
    else if s.depends.length > 40 then "depends: " ++ takeFirst 37 s.depends ++ "..."
    else "depends: " ++ s.depends

def ExtensionSummary.row (nameWidth typeWidth : Nat) (s : ExtensionSummary) : Result String := do
  let version ← decimalText s.version
  let types ← decimalText s.typeCount
  let commands ← decimalText s.commandCount
  let columns := "  " ++ padRight nameWidth s.name ++ "  " ++ padRight 4 ("v" ++ version)
    ++ " " ++ padRight typeWidth s.extType
    ++ "  " ++ padRight 10 (types ++ " types")
    ++ " " ++ padRight 8 (commands ++ " cmds")
  return if s.annotation.isEmpty then trimEnd columns
    else trimEnd (trimEnd columns ++ "  " ++ s.annotation)

def extensionsTable (summaries : List ExtensionSummary) (version : String) : Result String := do
  let head := toString summaries.length ++ " OpenXR extensions in xr.xml " ++ version ++ ":"
  let nameWidth := widest (summaries.map (·.name))
  let typeWidth := widest (summaries.map (·.extType))
  let rows ← summaries.mapM (·.row nameWidth typeWidth)
  return joinWith "\n" ([head, ""] ++ rows ++ [""])

def TypeEntry.line (nameWidth : Nat) (e : TypeEntry) : String :=
  if e.category.isEmpty then "    " ++ e.name
  else "    " ++ padRight nameWidth e.name ++ "  " ++ e.category

def ExtensionDetail.text (d : ExtensionDetail) : Result String := do
  let s := d.summary
  let label := if s.extType.isEmpty then "extension" else s.extType ++ " extension"
  let nameWidth := widest (d.types.map (·.name))
  let version ← decimalText s.version
  return joinWith "\n" (
    [s.name ++ " (" ++ label ++ ", version " ++ version ++ ")"]
    ++ (if s.vendorTag.isEmpty then [] else ["  Vendor:   " ++ s.vendorTag])
    ++ (if s.depends.isEmpty then [] else ["  Depends:  " ++ s.depends])
    ++ ["  Promoted: " ++ s.promotedTo.getD "no", "",
        "  Types (" ++ toString d.types.length ++ "):"]
    ++ d.types.map (·.line nameWidth)
    ++ ["", "  Commands (" ++ toString d.commands.length ++ "):"]
    ++ d.commands.map ("    " ++ ·)
    ++ [""])

end XrBindings
