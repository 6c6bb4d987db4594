import XrBindings.Text.Digit
import XrBindings.Text.LetterCase

/-!
# Case styles

The ways in which the words of an identifier are put together again, with the tag of an author at
the end: as written in the camel styles, and in the case of the words, after an underscore, in the
snake styles.
-/

namespace XrBindings.Naming

open XrBindings.Text

/-- The case styles. -/
inductive CaseStyle where
  | snake | screamingSnake | camel | titleCamel
  deriving DecidableEq, Repr

namespace CaseStyle

def ofName? : String → Option CaseStyle
  | "snake" => some .snake
  | "screaming_snake" => some .screamingSnake
  | "camel" => some .camel
  | "title_camel" => some .titleCamel
  | _ => none

/-- Words with underscores between them, all in one case. -/
def snakeText (convert : List Char → List Char) (words : List (List Char)) (tag : List Char) :
    List Char :=
  let parts := if tag.isEmpty then words else words ++ [tag]
  ((parts.map convert).intersperse ['_']).flatten

/-- A word in a camel style: its first letter, after any digits, is a capital, unless it starts
the identifier and `lowerFirst` holds. -/
def camelWord (lowerFirst : Bool) (word : List Char) : List Char :=
  let digits := word.takeWhile isDigit
  match word.dropWhile isDigit with
  | [] => digits
  | head :: rest =>
    let first := if digits.isEmpty && lowerFirst then lowerChars [head] else upperChars [head]
    digits ++ first ++ lowerChars rest

/-- Words without anything between them. Words of digits alone leave the first letter to come. -/
def camelText (lowerFirst : Bool) : List (List Char) → List Char
  | [] => []
  | word :: rest =>
    camelWord lowerFirst word ++ camelText (lowerFirst && word.all isDigit) rest

/-- Put the words of an identifier together. -/
def join (style : CaseStyle) (words : List (List Char)) (tag : List Char) : List Char :=
  match style with
  | .snake => snakeText lowerChars words tag
  | .screamingSnake => snakeText upperChars words tag
  | .camel => camelText true words ++ tag
  | .titleCamel => camelText false words ++ tag

end CaseStyle

end XrBindings.Naming
