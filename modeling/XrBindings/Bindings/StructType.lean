import XrBindings.Bindings.EnumMembers
import XrBindings.Bindings.ZigType

/-!
# Structs and unions in Zig

A struct that can be extended says what it is in a discriminant, whose value the registry gives,
and has a link to the next structure of a chain. Such a struct starts with these two set, and has
a function that sets them and leaves the rest open. A struct of plain numbers starts with zeros.
-/

namespace XrBindings

namespace Field

/-- The field says what its struct is. -/
def isDiscriminant (f : Field) : Bool := f.values.isSome && f.pointers.isEmpty

/-- The field links to the next structure of a chain. -/
def isNextChain (f : Field) : Bool := f.name == "next" && !f.pointers.isEmpty

def isNumeric (f : Field) : Bool :=
  f.pointers.isEmpty && f.arraySize.isNone && Zig.numericCTypes.contains f.typeName

end Field

/-- The declaration is a struct with a discriminant. -/
def TypeDecl.hasDiscriminant : TypeDecl → Bool
  | .struct _ fields _ _ => fields.any (·.isDiscriminant)
  | _ => false

namespace Context

/-- The value of a discriminant: the first that the registry gives. -/
def discriminantLiteral (c : Context) (f : Field) : Result String :=
  match Declarator.listAttribute f.values with
  | [] => .error .emptyDiscriminant
  | value :: _ => c.enumLiteral f.typeName value

/-- The values with which the fields of a struct start. -/
def structDefaults (c : Context) (fields : List Field) : Result (Table String String) :=
  match fields.find? (·.isDiscriminant), fields.find? (·.isNextChain) with
  | some discriminant, some chain => do
    let literal ← c.discriminantLiteral discriminant
    return Table.ofList [(discriminant.name, literal), (chain.name, "null")]
  | none, none =>
    .ok (if fields.all (·.isNumeric) then Table.ofList (fields.map fun f ↦ (f.name, "0"))
      else Table.empty)
  | _, _ => .ok Table.empty

def fieldLine (c : Context) (defaults : Table String String) (f : Field) : Result String := do
  let typed ← c.typedName f
  let start := match defaults.get? f.name with
    | some value => " = " ++ value
    | none => ""
  return "    " ++ typed ++ start ++ ","

/-- The lines that set a field in the function that leaves the rest open. -/
def settingLines (c : Context) (f : Field) : Result (List String) := do
  if f.isDiscriminant then
    let literal ← c.discriminantLiteral f
    let name ← c.renderer.fieldName f.name
    return ["        value." ++ name ++ " = " ++ literal ++ ";"]
  else if f.isNextChain then
    let name ← c.renderer.fieldName f.name
    return ["        value." ++ name ++ " = null;"]
  else return []

/-- The function that makes a value with the discriminant and the link set. -/
def emptyFunction (c : Context) (name : String) (fields : List Field) : Result (List String) := do
  let settings ← fields.mapM c.settingLines
  return ["", "    pub fn empty() " ++ name ++ " \x7b",
      "        var value: " ++ name ++ " = undefined;"]
    ++ settings.flatten ++ ["        return value;", "    \x7d"]

def structSource (c : Context) (name : String) (fields : List Field) : Result (List String) := do
  let defaults ← c.structDefaults fields
  let lines ← fields.mapM (c.fieldLine defaults)
  let function ← if fields.any (·.isDiscriminant) then c.emptyFunction name fields else pure []
  return ["pub const " ++ name ++ " = extern struct \x7b"] ++ lines ++ function ++ ["\x7d;"]

def unionSource (c : Context) (name : String) (fields : List Field) : Result (List String) := do
  let lines ← fields.mapM (c.fieldLine Table.empty)
  return ["pub const " ++ name ++ " = extern union \x7b"] ++ lines ++ ["\x7d;"]

end Context

end XrBindings
