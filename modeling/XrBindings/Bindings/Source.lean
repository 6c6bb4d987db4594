import XrBindings.Bindings.Declaration
import XrBindings.Bindings.Dispatch
import XrBindings.Registry.Load

/-!
# The source of the bindings

The sections of the bindings in their order, with an empty line between them; a section without
lines is left out. Nothing is written before everything has been rendered, so a registry that is
rejected at any stage has no bindings at all.
-/

namespace XrBindings

open XrBindings.Text

/-- The line around a header. -/
def headerBorder : String := "// x-------------------------------------------x //"

/-- The header of generated source: what it is and what registry it comes from. -/
def fileHeader (version registryName : String) : Result (List String) :=
  if version.isEmpty then .error .emptyVersion
  else .ok [
    headerBorder,
    "// | OpenXR bindings for Zig",
    "// | Generated by xrgen",
    "// | Source: " ++ registryName ++ " " ++ version,
    headerBorder]

def registryName : String := "xr.xml"

namespace Context

def extensionSource (c : Context) : Result (List String) :=
  if c.document.extensions.isEmpty then .ok []
  else do
    let lines ← c.document.extensions.mapM fun x ↦ do
      let name ← c.renderer.extensionName x.name
      let version ← Number.decimalText x.version
      return "    pub const " ++ name ++ ": ExtensionInfo = .\x7b .name = \"" ++ x.name ++
        "\", .version = " ++ version ++ " \x7d;"
    return ["pub const ExtensionInfo = struct \x7b", "    name: [:0]const u8,",
        "    version: u32,", "\x7d;", "", "pub const extension_info = struct \x7b"]
      ++ lines ++ ["\x7d;"]

/-- Every command as its wrapper sees it. -/
def signatures (c : Context) : Result (List WrapperSignature) :=
  c.document.commands.values.mapM (·.lower c.partitions)

/-- The declarations of types, and the names that they declare. -/
def typeSections (c : Context) : Result (List (List String) × List String) :=
  c.graph.order.foldlM (fun (sections, taken) decl ↦ do
    let lines ← c.declarationSource decl
    if lines.isEmpty then return (sections, taken)
    let name ← c.declaredName decl.name
    return (sections ++ [lines], taken ++ [name])) ([], [])

def sections (c : Context) : Result (List (List String)) := do
  let signatures ← c.signatures
  let header ← fileHeader c.document.version registryName
  let constants ← c.constantsSource
  let version ← c.versionSource
  let (types, taken) ← c.typeSections
  let aliases ← c.aliasSource
  let checks ← c.partitions.values.mapM c.resultCheckSource
  let (pointers, _) ← c.commandPointers taken
  let dispatch ← c.dispatchSource signatures
  let extensions ← c.extensionSource
  return [header ++ ["", "const std = @import(\"std\");"], constants, version] ++ types
    ++ [aliases] ++ checks ++ [pointers, dispatch, extensions]

def source (c : Context) : Result String := do
  let sections ← c.sections
  return joinWith "\n\n" ((sections.filter fun s ↦ !s.isEmpty).map (joinWith "\n")) ++ "\n"

end Context

/-- The bindings of a registry. -/
def Document.bindings (d : Document) : Result String := do
  let c ← Context.ofDocument d
  c.source

end XrBindings
