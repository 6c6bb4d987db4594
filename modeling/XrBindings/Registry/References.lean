import XrBindings.Registry.Document
import XrBindings.Text.Digit
import XrBindings.Zig.Scalar

/-!
# References

A registry is closed: every name it uses is declared in it, or is a scalar type of C. Bits stay
within the width of the set of flags that they belong to.
-/

namespace XrBindings

/-- The declarations that references are checked against. -/
structure Declarations where
  types : Table TypeName TypeDecl
  enums : Table String EnumDecl
  commands : Table String CommandDecl
  commandAliases : Table String CommandAlias
  constants : Table String ApiConstant

namespace Declarations

def isKnown (d : Declarations) (name : String) : Bool :=
  d.types.contains (some name) || d.enums.contains name || Zig.isCType name

/-- Refuse a reference that does not hold. -/
def require (holds : Bool) (owner : TypeName) (name : String) : Result Unit :=
  if holds then .ok () else reject (.undeclaredType owner name)

/-- The extent of an array is a number or a constant. -/
def isExtent (d : Declarations) (size : String) : Bool :=
  Text.isDigits size || d.constants.contains size

/-- Check the type and the extent of a field. -/
def checkField (d : Declarations) (owner : String) (f : Field) : Result Unit := do
  require (d.isKnown f.typeName) (some owner) f.typeName
  match f.arraySize with
  | none => return ()
  | some size =>
    if d.isExtent size then return () else reject (.undeclaredArraySize owner f.name size)

/-- Check the references of a type declaration. -/
def checkType (d : Declarations) : TypeDecl → Result Unit
  | .aliasOf name target _ => require (d.types.contains (some target)) name target
  | .base name (some underlying) => require (d.isKnown underlying) (some name) underlying
  | .bitmask name _ (some bits) => require (d.enums.contains bits) (some name) bits
  | .union name fields => fields.forM (d.checkField name)
  | .struct name fields extended _ => do
    fields.forM (d.checkField name)
    extended.forM fun parent ↦ require (d.types.contains (some parent)) (some name) parent
  | .functionPointer name returns params => (returns :: params).forM (d.checkField name)
  | _ => .ok ()

/-- Check every reference, in the order of the declarations. -/
def checkReferences (d : Declarations) : Result Unit := do
  d.types.values.forM d.checkType
  d.constants.entries.forM fun (name, value) ↦ match value with
    | .sizeOf typeName => require (d.isKnown typeName) (some name) typeName
    | _ => .ok ()
  d.commands.values.forM fun c ↦ (c.returns :: c.params).forM (d.checkField c.name)
  d.commandAliases.values.forM fun a ↦
    if d.commands.contains a.target || d.commandAliases.contains a.target then .ok ()
    else reject (.undeclaredCommand a.name a.target)

/-- Check that a value fits into a set of flags. -/
def checkBit (bitmask : String) (width : Nat) (v : EnumValue) : Result Unit :=
  match v.bit? with
  | some bit =>
    if bit ≥ width then Number.rejectShowing bit (.bitOutOfRange v.name bit width bitmask)
    else .ok ()
  | none => .ok ()

/-- Check the bits of every set of flags. -/
def checkBitWidths (d : Declarations) : Result Unit :=
  d.types.values.forM fun decl ↦ match decl with
    | .bitmask name width (some bits) =>
      match d.enums.get? bits with
      | some e => e.values.forM (checkBit name width)
      | none => .ok ()
    | _ => .ok ()

end Declarations

end XrBindings
