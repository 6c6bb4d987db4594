import XrBindings.Registry.Load.Field
import XrBindings.Registry.Load.Typedef
import XrBindings.Table

/-!
# Type declarations in a document

The category of a `type` element says what it declares. An `alias` attribute makes it another
spelling, whatever its category; includes and macros declare no type.
-/

namespace XrBindings.Load

open XrBindings.Text XrBindings.Xml

/-- The name of a declaration: an attribute, or the text of a child. -/
def declaredName? (e : Element) : Option String :=
  match e.nonempty? "name" with
  | some name => some name
  | none => ((e.child? "name").filter fun c ↦ !c.text.isEmpty).map fun c ↦ trim c.text

/-- The trimmed text of the `type` child, or nothing. -/
def typeText (e : Element) : String := ((e.child? "type").map fun c ↦ trim c.text).getD ""

/-- The width of a handle, from the macro that defines it. -/
def handleDispatch (name macroName : String) : Result Dispatch :=
  if macroName == "XR_DEFINE_HANDLE" then .ok .wide
  else if macroName == "XR_DEFINE_OPAQUE_64" || endsWith macroName "NON_DISPATCHABLE_HANDLE" then
    .ok .narrow
  else reject (.unknownHandleMacro name macroName)

/-- The type behind a base type: 64 bits for an atom, and otherwise what the element names. -/
def underlyingType? (e : Element) : Option String :=
  if hasText e.allText "XR_DEFINE_ATOM" || hasText e.allText "XR_DEFINE_OPAQUE_64" then
    some "uint64_t"
  else ((e.child? "type").filter fun c ↦ !c.text.isEmpty).map fun c ↦ trim c.text

/-- The width of a set of flags. -/
def bitmaskWidth (storage : String) : Nat :=
  if storage == "XrFlags64" || storage == "uint64_t" then 64 else 32

def members (e : Element) : Result (List Field) :=
  ((e.childrenNamed "member").filter fun m ↦ supportsApi (m.get? "api")).mapM field

/-- A function pointer, from its prototype or from its text in C. -/
def functionPointer (e : Element) : Result TypeDecl :=
  match e.child? "proto" with
  | some proto => do
    let returns ← field proto
    let params ← (e.childrenNamed "param").mapM field
    return .functionPointer returns.name returns params
  | none => Typedef.parse e.allText

/-- A declaration with a name that is no alias, by its category. -/
def namedType (e : Element) (name category : String) : Result TypeDecl :=
  match category with
  | "" => .ok (.external name ((e.get? "requires").getD ""))
  | "basetype" => .ok (.base name (underlyingType? e))
  | "handle" => (handleDispatch name (typeText e)).map (.handle name · (e.get? "parent"))
  | "bitmask" =>
    .ok (.bitmask name (bitmaskWidth (typeText e))
      ((e.nonempty? "bitvalues").or (e.get? "requires")))
  | "enum" => .ok (.enum name)
  | "union" => (members e).map (.union name)
  | "struct" =>
    (members e).map (.struct name · (Declarator.listAttribute (e.get? "structextends"))
      (e.get? "returnedonly" == some "true"))
  | _ => reject (.unknownCategory name category)

/-- A `type` element; nothing if it declares no type. -/
def typeElement (e : Element) : Result (Option TypeDecl) :=
  let category := (e.get? "category").getD ""
  if category == "include" || category == "define" then .ok none
  else
    match declaredName? e, e.nonempty? "alias", category == "funcpointer" with
    | none, _, false => reject (.namelessType category (shownMarkup e))
    | name, some target, _ => .ok (some (.aliasOf name target category))
    | _, none, true => (functionPointer e).map some
    | some name, none, false => (namedType e name category).map some

def types (root : Element) : Result (Table TypeName TypeDecl) :=
  (root.grandchildrenNamed "types" "type").foldlM (fun table e ↦ do
    if !supportsApi (e.get? "api") then return table
    match ← typeElement e with
    | none => return table
    | some decl =>
      if table.contains decl.name then reject (.duplicateType decl.name)
      return table.insert decl.name decl) Table.empty

end XrBindings.Load
