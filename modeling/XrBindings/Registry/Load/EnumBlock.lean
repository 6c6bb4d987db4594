import XrBindings.Number.RealText
import XrBindings.Registry.Document
import XrBindings.Registry.Load.Field

/-!
# Enum blocks and API constants in a document

Enum values stand in blocks of their own, one for each enum. One block of a reserved name holds
the constants of the API instead, which may be integers, real numbers, sizes of types, or other
spellings of constants that stand before them.
-/

namespace XrBindings.Load

open XrBindings.Text XrBindings.Xml XrBindings.Number

/-! ## API constants -/

/-- A C identifier. -/
def isCIdentifier (cs : List Char) : Bool :=
  match cs with
  | [] => false
  | c :: rest => (c.isAlpha || c == '_') && rest.all fun d ↦ d.isAlphanum || d == '_'

/-- The type in `sizeof(type)`. -/
def sizeOfType? (cs : List Char) : Option (List Char) :=
  let word := "sizeof(".toList
  let body := trimChars cs
  if word.isPrefixOf body && body.getLast? == some ')' then
    let inner := trimChars ((body.drop word.length).dropLast)
    if isCIdentifier inner then some inner else none
  else none

/-- The text of a real number without its suffix for single precision. -/
def withoutFloatSuffix (cs : List Char) : List Char :=
  dropEndWhile (fun c ↦ c == 'f' || c == 'F') (trimChars cs)

/-- The value of a constant, if the text is one: the size of a type, an integer, or a real number.
An integer with too many digits is read as a real number. -/
def constantValue (text : String) : Result (Option ApiConstant) :=
  match sizeOfType? text.toList with
  | some typeName => .ok (some (.sizeOf (String.ofList typeName)))
  | none => do
    match ← readCInteger signRoom text.toList with
    | some n => return some (.integer n)
    | none => return (RealText.read? (String.ofList (withoutFloatSuffix text.toList))).map .real

/-- Add the constant of an element. One that repeats a known constant has its value; one that has
no value, and repeats none, adds nothing. -/
def addConstant (constants : Table String ApiConstant) (e : Element) :
    Result (Table String ApiConstant) :=
  match e.nonempty? "name" with
  | none => .ok constants
  | some name =>
    match (e.get? "alias").bind constants.get? with
    | some value => .ok (constants.insert name value)
    | none =>
      match e.get? "value" with
      | none => .ok constants
      | some text => do
        match ← constantValue text with
        | some value => return constants.insert name value
        | none => reject (.unreadableConstant name text)

/-! ## Enum values -/

/-- A value as its own element gives it: an alias, a bit position or a number. -/
def enumValue (e : Element) (origin : String) : Result EnumValue :=
  match e.nonempty? "name" with
  | none => reject .namelessEnumValue
  | some name =>
    match e.nonempty? "alias", e.get? "bitpos", e.get? "value" with
    | some target, _, _ => .ok { name := some name, meaning := .aliasOf target, origin }
    | none, some text, _ => do
      let position ← integerAttribute e "bitpos" text
      return { name := some name, meaning := .bit position, origin }
    | none, none, some text => do
      let value ← integerAttribute e "value" text
      return { name := some name, meaning := .number value, origin }
    | none, none, none => reject (.enumValueWithoutValue name)

/-- The values of a block that belong to the API. -/
def enumBlock (e : Element) (name : String) : Result EnumDecl := do
  let kind := (e.get? "type").getD "enum"
  let bitWidth ← integerAttribute e "bitwidth" ((e.get? "bitwidth").getD "32")
  let start : EnumDecl := { name, kind, values := [], bitWidth }
  ((e.childrenNamed "enum").filter fun v ↦ supportsApi (v.get? "api")).foldlM
    (fun decl v ↦ do
      let value ← enumValue v coreOrigin
      decl.addValue value) start

/-- The block that holds the API constants. -/
def constantsBlock : String := "API Constants"

/-- The enums and the constants of a registry. -/
structure EnumTables where
  enums : Table String EnumDecl := .empty
  constants : Table String ApiConstant := .empty

/-- Add a block. -/
def addBlock (tables : EnumTables) (e : Element) : Result EnumTables :=
  let name := (e.get? "name").getD ""
  if name == constantsBlock then do
    let constants ← (e.childrenNamed "enum").foldlM addConstant tables.constants
    return { tables with constants }
  else if tables.enums.contains name then reject (.duplicateEnumBlock name)
  else do
    let decl ← enumBlock e name
    return { tables with enums := tables.enums.insert name decl }

def enumTables (root : Element) : Result EnumTables :=
  (root.childrenNamed "enums").foldlM addBlock {}

/-- Give an enum without values to every enum type that has no block. -/
def addEmptyEnums (types : Table TypeName TypeDecl) (enums : Table String EnumDecl) :
    Table String EnumDecl :=
  types.values.foldl (fun enums decl ↦ match decl with
    | .enum name => enums.insertNew name { name, kind := "enum", values := [] }
    | _ => enums) enums

end XrBindings.Load
