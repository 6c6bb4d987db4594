import XrBindings.Failure
import XrBindings.Number.IntegerText
import XrBindings.Xml.Element

/-!
# The version of a registry

The version stands in a macro of the document, as three numbers. Without that macro it is the
newest number of a feature, where numbers are compared part by part.
-/

namespace XrBindings.Load

open XrBindings.Text XrBindings.Xml XrBindings.Number

/-- The macro that holds the version. -/
def versionMacro : String := "XR_CURRENT_API_VERSION"

/-- Digits with white space around them, and what follows. -/
def spacedDigits? (cs : List Char) : Option (List Char × List Char) :=
  let (digits, rest) := (cs.dropWhile isBlank).span isDecimalDigit
  if digits.isEmpty then none else some (digits, rest.dropWhile isBlank)

/-- Three numbers at the beginning of a text, in the form of arguments. -/
def versionArguments? (cs : List Char) : Option (List (List Char)) := do
  let call := "XR_MAKE_VERSION(".toList
  if !call.isPrefixOf cs then none
  let (major, rest) ← spacedDigits? (cs.drop call.length)
  let (minor, rest) ← spacedDigits? (← comma? rest)
  let (patch, rest) ← spacedDigits? (← comma? rest)
  if rest.head? == some ')' then some [major, minor, patch] else none
where
  /-- What follows a comma. -/
  comma? (cs : List Char) : Option (List Char) :=
    match cs with
    | ',' :: rest => some rest
    | _ => none

/-- The first version in a text. -/
def findVersion? : List Char → Option (List (List Char))
  | [] => none
  | c :: rest => (versionArguments? (c :: rest)).or (findVersion? rest)

/-- The version in a macro definition, if it is the macro of the version. -/
def macroVersion? (e : Element) : Option String :=
  if e.get? "category" == some "define" && (e.child? "name").map (·.text) == some versionMacro then
    (findVersion? e.allText.toList).map fun parts ↦ joinWith "." (parts.map String.ofList)
  else none

def versionParts (number : String) : Result (List Int) :=
  (splitAtChar '.' number).mapM fun part ↦
    match readDecimalInteger? part.toList with
    | some n => .ok n
    | none => .error .unreadableVersion

/-- Whether a version comes before another one. -/
def versionLt : List Int → List Int → Bool
  | [], [] => false
  | [], _ :: _ => true
  | _ :: _, [] => false
  | a :: as, b :: bs => a < b || (a == b && versionLt as bs)

/-- The first of the newest among numbered versions. -/
def newest : (String × List Int) → List (String × List Int) → String
  | best, [] => best.1
  | best, v :: rest => newest (if versionLt best.2 v.2 then v else best) rest

def version (root : Element) : Result String :=
  match (root.grandchildrenNamed "types" "type").findSome? macroVersion? with
  | some v => .ok v
  | none => do
    let numbers := (root.childrenNamed "feature").filterMap (·.nonempty? "number")
    let numbered ← numbers.mapM fun n ↦ do
      let parts ← versionParts n
      return (n, parts)
    return match numbered with
      | [] => "unknown"
      | best :: rest => newest best rest

end XrBindings.Load
