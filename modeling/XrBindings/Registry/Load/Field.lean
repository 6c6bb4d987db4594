import XrBindings.Number.CInteger
import XrBindings.Registry.Declarator
import XrBindings.Xml.Printer

/-!
# Fields in a document

A field is an element with a `type` and a `name` child. The C declarator is the text around them:
what qualifies the type stands before it, the stars between type and name, and array extents after
the name.
-/

namespace XrBindings.Load

open XrBindings.Text XrBindings.Xml XrBindings.Number

/-- The API that bindings are made for. -/
def apiName : String := "openxr"

/-- Whether an element belongs to the API; it does unless it lists other APIs only. -/
def supportsApi (value : Option String) : Bool :=
  match value with
  | none => true
  | some apis => (commaList apis).contains apiName

/-- An integer in an attribute. -/
def integerAttribute (e : Element) (attr text : String) : Result Int := do
  match ← readCInteger signRoom text.toList with
  | some n => return n
  | none =>
    let owner := (e.nonempty? "name").getD ("<" ++ e.tag ++ ">")
    reject (.notAnInteger owner attr text)

/-- The trimmed text of a child, if there is any. -/
def childText? (e : Element) (tag : String) : Option String :=
  ((e.child? tag).map fun c ↦ trim c.text).filter fun t ↦ !t.isEmpty

/-- The markup of an element, as messages show it. -/
def shownMarkup (e : Element) : String := trim e.markup

/-- The numerals in brackets, in order. -/
def bracketedNumerals : List Char → List (List Char)
  | [] => []
  | c :: rest =>
    if c == '[' then
      match rest.span isDecimalDigit with
      | (digits, ']' :: _) =>
        if digits.isEmpty then bracketedNumerals rest else digits :: bracketedNumerals rest
      | _ => bracketedNumerals rest
    else bracketedNumerals rest

/-- The number of a numeral. Digits alone can only be too many. -/
def numeral (digits : List Char) : Result Nat :=
  match readDecimal? digits with
  | some n => .ok n
  | none => .error .tooManyDigits

/-- The extent of a fixed array, given the text after the name: the constant in the `enum` child,
or the product of the numerals in brackets, which is written in base ten again. -/
def arraySize (e : Element) (afterName : String) : Result (Option String) :=
  if !afterName.toList.contains '[' then .ok none
  else match (e.child? "enum").filter fun c ↦ !c.text.isEmpty with
    | some c => .ok (some (trim c.text))
    | none =>
      match bracketedNumerals afterName.toList with
      | [] => reject (.unreadableArraySize (trim afterName))
      | numerals => do
        let dims ← numerals.mapM numeral
        some <$> decimalText (dims.foldl (· * ·) 1 : Nat)

/-- A member, parameter or prototype. -/
def field (e : Element) : Result Field := do
  let missing (part : String) : Result Field :=
    reject (.missingPart e.tag part (shownMarkup e))
  match e.child? "type", childText? e "type" with
  | some typeChild, some typeName =>
    match e.child? "name", childText? e "name" with
    | some nameChild, some name =>
      let (isConst, constness) :=
        Declarator.pointerLevels e.text.toList typeChild.tail.toList
      let length := e.get? "len"
      let optional := e.get? "optional"
      let size ← arraySize e nameChild.tail
      return {
        name, typeName, isConst, length
        pointers := Declarator.pointerInfos typeName constness length optional
        arraySize := size
        optional := (Declarator.listAttribute optional).head? == some "true"
        values := e.get? "values" }
    | _, _ => missing "name"
  | _, _ => missing "type"

end XrBindings.Load
