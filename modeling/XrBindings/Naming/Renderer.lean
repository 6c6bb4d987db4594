import XrBindings.Failure
import XrBindings.Naming.CaseStyle
import XrBindings.Naming.Words
import XrBindings.Zig.Identifier

/-!
# Names of the registry in Zig

The registry names everything in one namespace: types begin with `Xr`, commands with `xr`,
constants with `XR_`, and names may end in the tag of their author. In the bindings the namespace
is the module, so the beginning is dropped, and each kind of name has its own case style.
-/

namespace XrBindings.Naming

open XrBindings.Text XrBindings.Zig

/-- The tag of extensions of more than one vendor that are still under way. -/
def fallbackTag : String := "EXTX"

/-- Renders names, knowing the tags of authors. -/
structure Renderer where
  tags : List String
  deriving DecidableEq, Repr

namespace Renderer

/-! ## Tags and styles -/

def authorTag? (r : Renderer) (name : String) : Option String :=
  (r.tags ++ [fallbackTag]).find? (endsWith name ·)

/-- A name without its tag and the underscores before it. -/
def withoutAuthorTag (r : Renderer) (name : String) : String :=
  match r.authorTag? name with
  | none => name
  | some tag =>
    String.ofList (dropEndWhile (· == '_') (name.toList.take (name.length - tag.length)))

/-- A name in a case style, not escaped. -/
def convert (r : Renderer) (name : String) (style : CaseStyle) : Result String :=
  let name := unwrapIdentifier name
  if name.length > maxIdentifierLength then
    reject (.identifierTooLong name.length (takeFirst 40 name))
  else
    let tag := ((r.authorTag? name).getD "").toList
    let body := name.toList.take (name.length - tag.length)
    .ok (String.ofList (style.join (segment body) tag))

/-- An identifier in a case style. -/
def render (r : Renderer) (name : String) (style : CaseStyle) : Result String :=
  (r.convert name style).map writeIdentifier

/-- Do something in the style of a name; the identifier is looked at before the style. -/
def byStyleName (f : Renderer → String → CaseStyle → Result String) (r : Renderer)
    (name style : String) : Result String :=
  match CaseStyle.ofName? style with
  | some style => f r name style
  | none => do
    let _ ← f r name .snake
    .error (.unknownStyle style)

/-! ## Kinds of names -/

/-- A type's name without the beginning of the namespace, which a capital follows. -/
def withoutTypePrefix (name : String) : String :=
  match name.toList with
  | 'X' :: 'r' :: c :: rest => if isUpper c then String.ofList (c :: rest) else name
  | _ => name

/-- The beginning of the names of function pointers. -/
def functionPointerStart : String := "PFN_xr"

/-- `XrSessionCreateInfo` is `SessionCreateInfo`, and `PFN_xrVoidFunction` is `PfnVoidFunction`.
Names outside the namespace are kept. -/
def typeName (r : Renderer) (name : String) : Result String :=
  if startsWith name functionPointerStart then
    (r.convert (withoutStart functionPointerStart name) .titleCamel).map fun body ↦
      writeIdentifier ("Pfn" ++ body)
  else if withoutTypePrefix name == name then .ok (writeIdentifier name)
  else r.render (withoutTypePrefix name) .titleCamel

/-- `xrCreateSession` is `createSession`. -/
def commandName (r : Renderer) (name : String) : Result String :=
  r.render (withoutStart "xr" name) .camel

/-- The function pointer of `xrCreateSession` is `PfnCreateSession`. -/
def commandPointerName (r : Renderer) (name : String) : Result String :=
  (r.convert (withoutStart "xr" name) .titleCamel).map fun body ↦ writeIdentifier ("Pfn" ++ body)

/-- Fields and parameters. -/
def fieldName (r : Renderer) (name : String) : Result String := r.render name .snake

/-- `XR_MAX_EXTENSION_NAME_SIZE` is `MAX_EXTENSION_NAME_SIZE`. -/
def constantName (r : Renderer) (name : String) : Result String :=
  r.render (withoutStart "XR_" name) .screamingSnake

/-- `XR_KHR_composition_layer_depth` is `khr_composition_layer_depth`. -/
def extensionName (r : Renderer) (name : String) : Result String :=
  r.render (withoutStart "XR_" name) .snake

/-! ## Names of enum values -/

/-- The words of a name without its tag, in capitals. -/
def capitalWords (r : Renderer) (name : String) : List (List Char) :=
  (segment (r.withoutAuthorTag name).toList).map upperChars

/-- Drop the words that a value shares with its enum at the beginning; the last word stays. -/
def dropShared : List (List Char) → List (List Char) → List (List Char)
  | t :: ts, v :: w :: ws => if t == v then dropShared ts (w :: ws) else v :: w :: ws
  | _, ws => ws

/-- The words of an enum that its values may share. Those of flags do not repeat `FLAG_BITS`. -/
def ownerWords (r : Renderer) (enumName : String) (isBitmask : Bool) : List (List Char) :=
  let words := r.capitalWords enumName
  if isBitmask && words.drop (words.length - 2) == ["FLAG".toList, "BITS".toList] then
    words.take (words.length - 2)
  else words

/-- The words of a value beside its enum. A flag does not end in `BIT`, unless that is all. -/
def valueWords (r : Renderer) (enumName valueName : String) (isBitmask : Bool) :
    List (List Char) :=
  let words := dropShared (r.ownerWords enumName isBitmask) (r.capitalWords valueName)
  if isBitmask && words.length > 1 && words.getLast? == some "BIT".toList then words.dropLast
  else words

/-- An enum value or flag beside its type: `XR_REFERENCE_SPACE_TYPE_VIEW` is `view`. A tag is kept
only where it differs from the tag of the enum. -/
def enumValueText (r : Renderer) (enumName valueName : String) (isBitmask : Bool) : List Char :=
  let words := (r.valueWords enumName valueName isBitmask).map lowerChars
  let text := (words.intersperse ['_']).flatten
  match r.authorTag? valueName with
  | none => text
  | some tag =>
    if tag.isEmpty || some tag == r.authorTag? enumName then text
    else text ++ '_' :: lowerChars tag.toList

/-- An enum value or flag as an identifier. -/
def enumValueName (r : Renderer) (enumName valueName : String) (isBitmask : Bool) : String :=
  writeIdentifier (String.ofList (r.enumValueText enumName valueName isBitmask))

/-- Drop a word at the beginning, in whatever case it is written. -/
def dropWord (word : String) (words : List (List Char)) : List (List Char) :=
  match words with
  | w :: rest => if upperChars w == word.toList then rest else words
  | [] => []

def errorName (r : Renderer) (valueName : String) : Result String :=
  let words := dropWord "XR" (segment (r.withoutAuthorTag valueName).toList)
  let words := if words.length > 1 then dropWord "ERROR" words else words
  let tag := match r.authorTag? valueName with
    | some tag => if tag.isEmpty then [] else '_' :: tag.toList
    | none => []
  (r.convert (String.ofList ((words.intersperse ['_']).flatten ++ tag)) .titleCamel).map
    writeIdentifier

end Renderer

end XrBindings.Naming
