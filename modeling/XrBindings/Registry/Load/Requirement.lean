import XrBindings.Registry.Load.EnumBlock

/-!
# Features and extensions in a document

Features and extensions bring in declarations by name, in `require` blocks. They may also add
values to enums. A value of an extension is often given by an offset, which counts from the range
that the number of the extension reserves.
-/

namespace XrBindings.Load

open XrBindings.Text XrBindings.Xml XrBindings.Number

def extensionBase : Int := 1000000000

/-- The size of the range of one extension. -/
def extensionRange : Int := 1000

def offsetValue (number offset : Int) (negative : Bool) : Int :=
  let value := extensionBase + (number - 1) * extensionRange + offset
  if negative then -value else value

/-- A value that an enum is extended with. `number?` is that of the extension around it. -/
def extensionValue (e : Element) (number? : Option Int) (origin : String) : Result EnumValue :=
  match e.get? "offset" with
  | none => enumValue e origin
  | some offsetText => do
    let number? ← match e.get? "extnumber" with
      | some text => some <$> integerAttribute e "extnumber" text
      | none => pure number?
    match number? with
    | none => reject (.offsetOutsideExtension (e.get? "name"))
    | some number =>
      let offset ← integerAttribute e "offset" offsetText
      let value := offsetValue number offset (e.get? "dir" == some "-")
      return { name := e.get? "name", meaning := .number value, origin }

/-- What has been collected: the names brought in, and the enums with the values added. -/
structure Collected where
  required : Requirements := {}
  enums : Table String EnumDecl

/-- Take one `enum` element of a `require` block into account. -/
def addEnum (number? : Option Int) (origin : String) (c : Collected) (e : Element) :
    Result Collected :=
  match e.nonempty? "extends" with
  | none => .ok c
  | some block =>
    match c.enums.get? block with
    | none => reject (.unknownExtendedEnum (e.get? "name") block)
    | some decl => do
      let value ← extensionValue e number? origin
      let decl ← decl.addValue value
      return {
        required := { c.required with enums := c.required.enums ++ [value.name] }
        enums := c.enums.insert block decl }

/-- Take one `require` block into account. -/
def addRequire (number? : Option Int) (origin : String) (c : Collected) (e : Element) :
    Result Collected :=
  let names (tag : String) := (e.childrenNamed tag).filterMap (·.nonempty? "name")
  let required := { c.required with
    types := c.required.types ++ names "type"
    commands := c.required.commands ++ names "command" }
  (e.childrenNamed "enum").foldlM (addEnum number? origin) { c with required }

/-- Everything that a feature or an extension brings in. -/
def collect (e : Element) (origin : String) (number? : Option Int) (enums : Table String EnumDecl) :
    Result Collected :=
  ((e.childrenNamed "require").filter fun r ↦ supportsApi (r.get? "api")).foldlM
    (addRequire number? origin) { enums }

/-! ## Features -/

/-- Add a feature that belongs to the API. -/
def addFeature (state : List Feature × Table String EnumDecl) (e : Element) :
    Result (List Feature × Table String EnumDecl) :=
  if !supportsApi (some ((e.get? "api").getD apiName)) then .ok state
  else do
    let c ← collect e coreOrigin none state.2
    let feature : Feature := {
      name := (e.get? "name").getD "", number := (e.get? "number").getD ""
      required := c.required }
    return (state.1 ++ [feature], c.enums)

/-- The features of a registry, and its enums with their values. -/
def features (root : Element) (enums : Table String EnumDecl) :
    Result (List Feature × Table String EnumDecl) :=
  (root.childrenNamed "feature").foldlM addFeature ([], enums)

/-! ## Extensions -/

/-- The version of an extension, from the first value whose name says so; zero if it cannot be
read. -/
def extensionVersion (e : Element) : Result Int :=
  let isVersion (v : Element) : Bool :=
    endsWith ((v.get? "name").getD "") "_SPEC_VERSION" && (v.nonempty? "value").isSome
  match (e.grandchildrenNamed "require" "enum").find? isVersion with
  | some v => (readCInteger signRoom ((v.get? "value").getD "").toList).map (·.getD 0)
  | none => .ok 0

/-- The tag of the author of an extension: the second part of a name of at least three. -/
def vendorTag (name : String) : String :=
  match splitAtChar '_' name with
  | _ :: tag :: _ :: _ => tag
  | _ => ""

/-- Whether an extension is to be bound. -/
def isSupported (e : Element) : Bool :=
  let supported := (e.get? "supported").getD apiName
  supported != "disabled" && supportsApi (some supported)

/-- Add an extension that is supported. -/
def addExtension (state : List Extension × Table String EnumDecl) (e : Element) :
    Result (List Extension × Table String EnumDecl) :=
  if !isSupported e then .ok state
  else
    match e.nonempty? "name", e.get? "number" with
    | some name, some text => do
      let number ← integerAttribute e "number" text
      let c ← collect e name (some number) state.2
      let version ← extensionVersion e
      let extension : Extension := {
        name, number, version
        vendorTag := vendorTag name
        extType := (e.get? "type").getD ""
        promotedTo := e.get? "promotedto"
        depends := ((e.nonempty? "depends").or (e.get? "requires")).getD ""
        required := c.required }
      return (state.1 ++ [extension], c.enums)
    | name, _ => reject (.incompleteExtension (name.getD "?"))

/-- The extensions of a registry, and its enums with their values. -/
def extensions (root : Element) (enums : Table String EnumDecl) :
    Result (List Extension × Table String EnumDecl) :=
  (root.grandchildrenNamed "extensions" "extension").foldlM addExtension ([], enums)

/-! ## Origins -/

/-- Record where names come from; the first origin of a name stays. -/
def recordOrigins (origins : Table (Option String) String) (r : Requirements) (origin : String) :
    Table (Option String) String :=
  (r.types.map some ++ r.commands.map some ++ r.enums).foldl
    (fun origins name ↦ origins.insertNew name origin) origins

/-- The origin of every name that a feature or an extension brings in. Features come first. -/
def origins (features : List Feature) (extensions : List Extension) :
    Table (Option String) String :=
  let fromCore := features.foldl (fun o f ↦ recordOrigins o f.required coreOrigin) Table.empty
  extensions.foldl (fun o x ↦ recordOrigins o x.required x.name) fromCore

end XrBindings.Load
