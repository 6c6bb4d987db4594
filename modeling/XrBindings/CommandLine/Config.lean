import XrBindings.CommandLine.Path

/-!
# What is asked for

The arguments of the command line as a request: to generate bindings, or to list what a registry
holds. Arguments that do not fit together, or to the files that are there, are refused with a hint
at what would fit.
-/

namespace XrBindings

/-- The arguments of the command line. -/
structure Arguments where
  registry : Option Path := none
  output : Option Path := none
  listExtensions : Bool := false
  info : Option String := none
  filter : Option String := none
  deriving DecidableEq, Repr

/-- What a registry can be listed by. -/
inductive Discovery where
  | listExtensions | info
  deriving DecidableEq, Repr

def Discovery.name : Discovery → String
  | .listExtensions => "list-extensions"
  | .info => "info"

/-- A request. -/
inductive Config where
  | generate (registry output : Path)
  | discovery (command : Discovery) (registry : Path) (filter info : Option String)
  deriving DecidableEq, Repr

/-- Why arguments are refused. -/
inductive ConfigError where
  | missingRegistry
  | missingOutput
  | pathNotFound (path : Path)
  | invalidExtensionName (name : String)
  /-- Generating and listing exclude each other. -/
  | conflict
  | filterWithoutList
  deriving DecidableEq, Repr

namespace ConfigError

/-- The names of all refusals. -/
def codes : List String :=
  ["MISSING_REGISTRY", "MISSING_OUTPUT", "PATH_NOT_FOUND", "INVALID_EXTENSION_NAME",
   "CONFLICT_GENERATE_DISCOVERY", "FILTER_WITHOUT_LIST"]

def code : ConfigError → String
  | .missingRegistry => "MISSING_REGISTRY"
  | .missingOutput => "MISSING_OUTPUT"
  | .pathNotFound _ => "PATH_NOT_FOUND"
  | .invalidExtensionName _ => "INVALID_EXTENSION_NAME"
  | .conflict => "CONFLICT_GENERATE_DISCOVERY"
  | .filterWithoutList => "FILTER_WITHOUT_LIST"

def message : ConfigError → String
  | .missingRegistry => "<registry xml> is required: no path provided."
  | .missingOutput => "Generate mode requires an output path."
  | .pathNotFound path => "Path for <registry xml> does not exist: " ++ path.text
  | .invalidExtensionName name => "Invalid extension name: " ++ name
  | .conflict => "An output path cannot be combined with discovery flags."
  | .filterWithoutList => "--filter requires --list-extensions."

/-- Where a registry can be found. -/
def registryHint : String :=
  "The most recent registry is published at\n" ++
  "  https://github.com/KhronosGroup/OpenXR-Docs/blob/main/xml/xr.xml\n" ++
  "and ships with the OpenXR SDK under share/openxr/registry/xr.xml."

/-- What would be accepted. -/
def suggestion : ConfigError → String
  | .missingRegistry | .pathNotFound _ => registryHint
  | .missingOutput =>
    "Pass the generated source path: xrgen <registry xml> <output zig source>"
  | .invalidExtensionName _ =>
    "Extension names must match XR_<VENDOR>_<name> (for example XR_KHR_composition_layer_depth)."
  | .conflict =>
    "Choose either generate mode (<registry> <output>) or one discovery command."
  | .filterWithoutList => "Add --list-extensions or remove --filter."

end ConfigError

namespace Config

/-- The name of an extension: `XR_`, the tag of a vendor, and a name of words. -/
def isExtensionName (name : String) : Bool :=
  match name.toList with
  | 'X' :: 'R' :: '_' :: rest =>
    let vendor := rest.takeWhile fun c ↦ c.isUpper || c.isDigit
    match rest.dropWhile fun c ↦ c.isUpper || c.isDigit with
    | '_' :: body =>
      !vendor.isEmpty && !body.isEmpty && body.all fun c ↦ c.isAlphanum || c == '_'
    | _ => false
  | _ => false

/-- Refuse what cannot be the name of an extension. -/
def requireExtensionName (name : String) : Except ConfigError String :=
  if isExtensionName name then .ok name else .error (.invalidExtensionName name)

/-- The request of arguments; `isThere` tells whether there is anything at a path. An empty text
asks for nothing. -/
def ofArguments (isThere : Path → Bool) (a : Arguments) : Except ConfigError Config := do
  let asked (text : Option String) : Bool := text.any fun t ↦ !t.isEmpty
  let discovers := a.listExtensions || asked a.info
  if asked a.filter && !a.listExtensions then throw .filterWithoutList
  if discovers && a.output.isSome then throw .conflict
  let registry ← match a.registry with
    | none => throw .missingRegistry
    | some path => if isThere path then pure path else throw (.pathNotFound path)
  if discovers then
    let info ← a.info.mapM requireExtensionName
    return .discovery (if a.listExtensions then .listExtensions else .info) registry a.filter info
  match a.output with
  | none => throw .missingOutput
  | some output => return .generate registry output

end Config

end XrBindings
