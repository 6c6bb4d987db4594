import XrBindings.Registry.Declarator
import XrBindings.Registry.TypeDecl
import XrBindings.Text.Word

/-!
# Function pointer typedefs

A function pointer may be declared by its text in C:

    typedef void (XRAPI_PTR *PFN_xrCallback)(uint32_t count, const char* name);

The text may hold anything around the declaration. It is found by its first `typedef` that can be
read to the end. What it returns is as short as possible, and the parameters extend to the last
parenthesis that a semicolon follows.
-/

namespace XrBindings.Typedef

open XrBindings.Text

/-- The parts of a typedef, as written. -/
structure Parts where
  returns : List Char
  name : List Char
  params : List Char
  deriving DecidableEq, Repr

/-- Skip white space and then a given character. -/
def skipTo? (c : Char) (cs : List Char) : Option (List Char) :=
  match cs.dropWhile isBlank with
  | d :: rest => if d == c then some rest else none
  | [] => none

/-- The text before the last closing parenthesis that only white space separates from a
semicolon. -/
def beforeLastClose? : List Char → Option (List Char)
  | [] => none
  | c :: rest =>
    match beforeLastClose? rest with
    | some before => some (c :: before)
    | none => if c == ')' && (skipTo? ';' rest).isSome then some [] else none

/-- Skip the calling convention, if it is there. -/
def skipConvention (cs : List Char) : List Char :=
  let word := "XRAPI_PTR".toList
  if word.isPrefixOf cs then (cs.drop word.length).dropWhile isBlank else cs

/-- The name and the parameters: `( * name ) ( params ) ;`. -/
def declarator? (cs : List Char) : Option (List Char × List Char) := do
  let cs ← skipTo? '(' cs
  let cs ← skipTo? '*' (skipConvention (cs.dropWhile isBlank))
  let (name, cs) := (cs.dropWhile isBlank).span isWordChar
  if name.isEmpty then none
  let cs ← skipTo? ')' cs
  let cs ← skipTo? '(' cs
  let params ← beforeLastClose? cs
  return (name, params)

/-- The rest of a typedef, with as little as possible for what it returns, but something. `taken`
is read already, last first. -/
def partsFrom? (taken : List Char) : List Char → Option Parts
  | [] => none
  | c :: rest =>
    match declarator? rest with
    | some (name, params) => some { returns := (c :: taken).reverse, name, params }
    | none => partsFrom? (c :: taken) rest

/-- A typedef at the beginning of a text. White space after the keyword belongs to it, all of it
if the rest can then be read. -/
def parts? (cs : List Char) : Option Parts :=
  let word := "typedef".toList
  if word.isPrefixOf cs then
    let rest := cs.drop word.length
    let gap := (rest.takeWhile isBlank).length
    (List.range gap).reverse.findSome? fun n ↦ partsFrom? [] (rest.drop (n + 1))
  else none

/-- The first typedef in a text. -/
def find? : List Char → Option Parts
  | [] => none
  | c :: rest => (parts? (c :: rest)).or (find? rest)

def parse (text : String) : Result TypeDecl :=
  match find? text.toList with
  | none => reject (.unreadableFunctionPointer (trim text))
  | some p => do
    let returns ← Declarator.parse (String.ofList p.returns) ""
    let pieces := commaList (String.ofList p.params)
    let params ←
      if pieces == ["void"] || pieces == [""] then pure []
      else pieces.mapM fun piece ↦ Declarator.parse piece ""
    return .functionPointer (String.ofList p.name) returns params

end XrBindings.Typedef
