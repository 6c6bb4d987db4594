import XrBindings.Bindings.Context
import XrBindings.Text.Digit
import XrBindings.Zig.Scalar

/-!
# Types in Zig

The type of a field in Zig. A pointer to one object, to many, and to a text that ends in a zero
are different types there; an untyped pointer is a pointer to an opaque object, and an untyped
array is an array of bytes.
-/

namespace XrBindings

/-- The levels of indirection as they are emitted: the link to the next structure of a chain may
always be null. -/
def effectivePointers (f : Field) : List PointerLevel :=
  match f.pointers with
  | [] => []
  | outer :: inner =>
    if f.name == "next" then { outer with nullable := true } :: inner else outer :: inner

namespace PointerLevel

/-- The mark of a pointer, which stands before its pointee. -/
def mark (level : PointerLevel) : String :=
  (if level.nullable then "?" else "")
    ++ (match level.multiplicity with
      | .single => "*"
      | .nullTerminated => "[*:0]"
      | _ => "[*]")
    ++ (if level.constant then "const " else "")

/-- What stands behind the innermost pointer. -/
def pointee (level : PointerLevel) (type : String) : String :=
  if type == "void" then if level.multiplicity == .single then "anyopaque" else "u8" else type

end PointerLevel

/-- A pointer type, given the levels of indirection, outermost first. -/
def pointerType (pointee : String) : List PointerLevel → String
  | [] => pointee
  | [level] => level.mark ++ level.pointee pointee
  | level :: inner => level.mark ++ pointerType pointee inner

namespace Context

/-- The type of a name, without any indirection. -/
def baseType (c : Context) (typeName : String) : Result String :=
  match Zig.cTypes.lookup typeName with
  | some type => .ok type
  | none =>
    match Zig.platformTypes.lookup typeName with
    | some type => .ok type
    | none =>
      if c.document.hasType typeName || c.document.enums.contains typeName then
        c.declaredName (some typeName)
      else reject (.noZigType typeName)

/-- The length of an array: a number, or a constant. -/
def arrayLength (c : Context) (size : String) : Result String :=
  if Text.isDigits size then .ok size else c.renderer.constantName size

/-- The type is a function pointer, perhaps by another spelling. -/
def isFunctionPointer (c : Context) (typeName : String) : Result Bool := do
  match ← c.terminal? typeName with
  | some (.functionPointer _ _ _) => return true
  | _ => return false

def fieldType (c : Context) (f : Field) : Result String := do
  let base ← c.baseType f.typeName
  if !f.pointers.isEmpty then return pointerType base (effectivePointers f)
  match f.arraySize with
  | some size =>
    let length ← c.arrayLength size
    return "[" ++ length ++ "]" ++ base
  | none =>
    if f.optional then
      let isFunction ← c.isFunctionPointer f.typeName
      return if isFunction then "?" ++ base else base
    else return base

def pointeeType (c : Context) (f : Field) : Result String := do
  let base ← c.baseType f.typeName
  return pointerType base (f.pointers.drop 1)

def typedName (c : Context) (f : Field) : Result String := do
  let name ← c.renderer.fieldName f.name
  let type ← c.fieldType f
  return name ++ ": " ++ type

def functionType (c : Context) (returns : Field) (params : List Field) : Result String := do
  let args ← params.mapM c.typedName
  let result ← c.fieldType returns
  return "*const fn (" ++ Text.joinWith ", " args ++ ") callconv(.c) " ++ result

end Context

end XrBindings
