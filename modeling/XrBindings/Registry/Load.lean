import XrBindings.Registry.Load.Command
import XrBindings.Registry.Load.Requirement
import XrBindings.Registry.Load.TypeElement
import XrBindings.Registry.Load.Version
import XrBindings.Registry.References
import XrBindings.Xml.Reader

/-!
# Loading a registry

From a document to the registry model. The parts of the document are read one after another, so
that of two faults the one in the earlier part is reported; references are checked last, over
everything that was read.
-/

namespace XrBindings

open XrBindings.Xml

namespace Document

/-- The commands with the extension that introduces each. -/
def withOrigins (origins : Table (Option String) String) (commands : Table String CommandDecl) :
    Table String CommandDecl :=
  commands.map fun name c ↦ match origins.get? (some name) with
    | some origin => if origin == coreOrigin then c else { c with origin }
    | none => c

/-- The registry of a document tree. -/
def ofElement (root : Element) : Result Document := do
  if root.tag != "registry" then reject (.rootElement root.tag)
  let tags := (root.grandchildrenNamed "tags" "tag").filterMap (·.nonempty? "name")
  let types ← Load.types root
  let tables ← Load.enumTables root
  let enums := Load.addEmptyEnums types tables.enums
  let commandTables ← Load.commandTables root
  let (features, enums) ← Load.features root enums
  let (extensions, enums) ← Load.extensions root enums
  let origins := Load.origins features extensions
  let declarations : Declarations := {
    types, enums, commands := commandTables.commands
    commandAliases := commandTables.aliases, constants := tables.constants }
  declarations.checkReferences
  declarations.checkBitWidths
  let version ← Load.version root
  return {
    tags, types, enums, features, extensions, origins, version
    commands := withOrigins origins commandTables.commands
    commandAliases := commandTables.aliases
    apiConstants := tables.constants }

end Document

/-- The root element, or the failure to read a document. -/
def rootElement (r : Except ReadError Element) : Result Element :=
  match r with
  | .ok root => .ok root
  | .error .malformed => reject .notWellFormed
  | .error .unknownEncoding => .error .unknownEncoding

/-- What a document is read from. -/
inductive Source where
  /-- Text; the encoding that it declares for itself is not heeded. -/
  | text (text : String)
  | bytes (bytes : List UInt8)

/-- The root element of a source. -/
def Source.root : Source → Result Element
  | .text s => rootElement (readText s)
  | .bytes bs => rootElement (read false bs)

def Source.document (s : Source) : Result Document := s.root.bind Document.ofElement

end XrBindings
