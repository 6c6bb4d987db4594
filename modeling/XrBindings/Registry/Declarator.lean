import XrBindings.Failure
import XrBindings.Registry.Field
import XrBindings.Text.Word

/-!
# C declarators

The registry writes types in C. Around the name of a type stand the word `const` and stars, read
from left to right: a star makes a pointer to what was declared so far, and `const` qualifies the
declaration up to it, so that it is the pointee of the next star. The outermost pointer is the
last star.

A declarator is cut into tokens once, stars and words, and everything else is a separator.
-/

namespace XrBindings

open XrBindings.Text

namespace Declarator

/-! ## Tokens -/

/-- What matters in a declarator. -/
inductive Token where
  | star
  | word (text : List Char)
  deriving DecidableEq, Repr

/-- The word collected so far, if there is one; its letters come last first. -/
def closeWord (letters : List Char) : List Token :=
  if letters.isEmpty then [] else [.word letters.reverse]

/-- Cut a text into tokens; `letters` belong to a word that has begun, last first. -/
def tokensFrom (letters : List Char) : List Char → List Token
  | [] => closeWord letters
  | c :: rest =>
    if isWordChar c then tokensFrom (c :: letters) rest
    else if c == '*' then closeWord letters ++ .star :: tokensFrom [] rest
    else closeWord letters ++ tokensFrom [] rest

/-- Cut a text into stars and words. -/
def tokens (cs : List Char) : List Token := tokensFrom [] cs

def constWord : List Char := ['c', 'o', 'n', 's', 't']

def structWord : List Char := ['s', 't', 'r', 'u', 'c', 't']

/-! ## Levels of indirection -/

/-- The constness of the pointees, outermost first; `constant` is that of what was declared so
far. -/
def pointeesFrom (constant : Bool) (found : List Bool) : List Token → List Bool
  | [] => found
  | .star :: rest => pointeesFrom false (constant :: found) rest
  | .word w :: rest => pointeesFrom (constant || w == constWord) found rest

/-- The constness around a type name: of the base type, and of each pointee, outermost first. -/
def pointerLevels (before after : List Char) : Bool × List Bool :=
  let base := (before.splitOnP isBlank).contains constWord
  (base, pointeesFrom base [] (tokens after))

/-- The items of an attribute that lists them with commas; an empty attribute has none. -/
def listAttribute (value : Option String) : List String :=
  match value with
  | none => []
  | some text => if text.isEmpty then [] else commaList text

/-- One level of indirection. `entry` is its length in the registry, and a constant `char` at the
innermost level is a string when no length is given. -/
def pointerLevel (typeName : String) (innermost constant nullable : Bool) (entry : Option String) :
    PointerLevel :=
  match entry with
  | none =>
    if innermost && typeName == "char" && constant then
      { nullable, constant, multiplicity := .nullTerminated }
    else { nullable, constant }
  | some length =>
    if length == "null-terminated" then { nullable, constant, multiplicity := .nullTerminated }
    else if length == "1" then { nullable, constant }
    else { nullable, constant, multiplicity := .lengthLinked, length := some length }

/-- The levels of indirection of a declaration. Lengths and the marks for null are matched to the
levels from the outermost, and may be fewer. -/
def pointerInfos (typeName : String) (constness : List Bool) (length optional : Option String) :
    List PointerLevel :=
  let lengths := listAttribute length
  let marks := listAttribute optional
  constness.mapIdx fun i constant ↦
    pointerLevel typeName (i + 1 == constness.length) constant (marks[i]? == some "true")
      lengths[i]?

/-! ## Plain declarations -/

/-- The words that name something: all but `const` and `struct`. -/
def namingWords (cs : List Char) : List (List Char) :=
  (tokens cs).filterMap fun
    | .star => none
    | .word w => if w == constWord || w == structWord then none else some w

/-- The declaration of a type in a text, under a name that is already known. The type is found by
its first occurrence. -/
def ofType (name : String) (typeName text : List Char) : Field :=
  let start := (findChars? typeName text).getD 0
  let (isConst, constness) :=
    pointerLevels (text.take start) (text.drop (start + typeName.length))
  let typeText := String.ofList typeName
  { name, typeName := typeText, isConst
    pointers := pointerInfos typeText constness none none }

/-- A plain declaration such as `const char* name`. The first naming word is the type. Unless the
name is given, the last of several naming words is the name, and the text is cut where it occurs
last. -/
def parse (text : String) (name : String) : Result Field :=
  let cs := text.toList
  match namingWords cs with
  | [] => reject (.unreadableDeclaration text)
  | typeName :: rest =>
    match rest.getLast? with
    | some last =>
      if name.isEmpty then
        .ok (ofType (String.ofList last) typeName (cs.take ((findLastChars? last cs).getD 0)))
      else .ok (ofType name typeName cs)
    | none => .ok (ofType name typeName cs)

end Declarator

end XrBindings
