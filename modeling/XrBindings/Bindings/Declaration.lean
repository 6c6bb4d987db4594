import XrBindings.Bindings.FlagType
import XrBindings.Bindings.StructType
import XrBindings.Number.RealText

/-!
# Declarations of types and constants

Each declaration of the registry that is no alias becomes a declaration in Zig, except for types
that Zig has under a name of its own.
-/

namespace XrBindings

namespace Context

/-- A constant with a value. -/
def constantLine (name value : String) : String := "pub const " ++ name ++ " = " ++ value ++ ";"

/-- A type about which nothing is known. -/
def incompleteType (name : String) : String := constantLine name "opaque \x7b\x7d"

/-- The declaration of an enum: of values, of flags, or another name for the flags that its bits
belong to. -/
def enumSource (c : Context) (name enumName : String) : Result (List String) :=
  match c.document.enums.get? enumName with
  | none => .error .unknownName
  | some decl =>
    if !decl.isBitmask then do
      let m ← c.enumMembers decl
      m.source name
    else
      match c.flagOwners.get? enumName with
      | some owner => do
        let target ← c.declaredName (some owner)
        return [constantLine name target]
      | none => (c.flagLayout name (some enumName) decl.bitWidth).map FlagLayout.source

/-- The lines of a declaration that is no alias. -/
def declarationSource (c : Context) (decl : TypeDecl) : Result (List String) := do
  let name ← c.declaredName decl.name
  match decl with
  | .base _ none => return [incompleteType name]
  | .base _ (some underlying) =>
    let type ← c.baseType underlying
    return [constantLine name type]
  | .external source _ =>
    return if Zig.isCType source || Zig.isPlatformType source then [] else [incompleteType name]
  | .handle _ dispatch _ =>
    let tag := if dispatch == .wide then "usize" else "u64"
    return [constantLine name ("enum(" ++ tag ++ ") \x7b null_handle = 0, _ \x7d")]
  | .bitmask _ width bitsEnum => (c.flagLayout name bitsEnum width).map FlagLayout.source
  | .enum source => c.enumSource name source
  | .struct _ fields _ _ => c.structSource name fields
  | .union _ fields => c.unionSource name fields
  | .functionPointer _ returns params =>
    let type ← c.functionType returns params
    return [constantLine name type]
  | .aliasOf source _ _ => reject (.unhandledAlias source)

/-- The other spellings of types, where they differ from the declared ones in Zig. -/
def aliasSource (c : Context) : Result (List String) := do
  let lines ← c.graph.aliases.mapM fun (spelling, target) ↦ do
    let name ← c.renderer.typeName (← required spelling)
    let declared ← c.renderer.typeName (← required target)
    return if name == declared then [] else [constantLine name declared]
  return lines.flatten

def constantText (c : Context) : ApiConstant → Result String
  | .sizeOf typeName => (c.baseType typeName).map fun type ↦ "@sizeOf(" ++ type ++ ")"
  | .real x => .ok (Number.RealText.print x)
  | .integer n => Number.decimalText n

def constantsSource (c : Context) : Result (List String) :=
  c.document.apiConstants.entries.mapM fun (name, value) ↦ do
    let text ← c.constantText value
    let rendered ← c.renderer.constantName name
    return constantLine rendered text

def versionType : String := "XrVersion"

/-- A function that packs a version into a number, and the version of the registry if it has three
numbers. -/
def versionSource (c : Context) : Result (List String) :=
  if !c.document.hasType versionType then .ok []
  else do
    let version ← c.declaredName (some versionType)
    let parts := Text.splitAtChar '.' c.document.version
    let current :=
      if parts.length == 3 && parts.all Text.isDigits then
        ["", constantLine "CURRENT_API_VERSION"
          ("makeVersion(" ++ Text.joinWith ", " parts ++ ")")]
      else []
    return ["pub fn makeVersion(major: u16, minor: u16, patch: u32) " ++ version ++ " \x7b",
        "    return (@as(u64, major) << 48) | (@as(u64, minor) << 32) | patch;",
        "\x7d"] ++ current

end Context

end XrBindings
