import XrBindings.Xml.Token

/-!
# Entities

A document may declare names for texts. In content the text of an entity is read as content again,
and in an attribute value as part of a value. An entity is open while its text is read, and an
open entity may not be referred to; since each step takes a name from the entities that are not
open, including entities ends.
-/

namespace XrBindings.Xml

/-- What an entity stands for. -/
inductive Replacement where
  | internal (text : List Char)
  /-- Something outside the document, which cannot be included. -/
  | outside
  deriving DecidableEq, Repr

/-- The declared entities. The first declaration of a name counts. -/
structure Entities where
  declared : List (List Char × Replacement) := []
  /-- Part of the declarations was not read, so that a name may be unknown for good reason. -/
  incomplete : Bool := false

namespace Entities

/-- The names of all declared entities. -/
def names (es : Entities) : List (List Char) := es.declared.map Prod.fst

def declare (es : Entities) (name : List Char) (r : Replacement) : Entities :=
  if es.names.contains name || (Token.predefined? name).isSome then es
  else { es with declared := es.declared ++ [(name, r)] }

/-- An attribute value with its entities included. White space that is written counts as blanks.
In an incomplete set, a name that is not declared stands for nothing. -/
def expandValue (es : Entities) (closed : List (List Char)) (pieces : List Piece) :
    Option (List Char) :=
  match pieces with
  | [] => some []
  | .literal c :: rest =>
    (expandValue es closed rest).map ((if isXmlBlank c then ' ' else c) :: ·)
  | .numbered c :: rest => (expandValue es closed rest).map (c :: ·)
  | .entity name :: rest =>
    match es.declared.lookup name with
    | none => if es.incomplete then expandValue es closed rest else none
    | some .outside => none
    | some (.internal text) =>
      if _h : name ∈ closed then
        match Token.piecesOfChars? text with
        | none => none
        | some inner =>
          match expandValue es (closed.erase name) inner with
          | none => none
          | some value => (expandValue es closed rest).map (value ++ ·)
      else none
termination_by (closed.length, pieces.length)
decreasing_by
  all_goals first
    | (apply Prod.Lex.left
       rw [List.length_erase_of_mem _h]
       exact Nat.sub_lt (List.length_pos_of_mem _h) Nat.one_pos)
    | (apply Prod.Lex.right; simp)

/-- The value of an attribute whose type is not plain text: blanks are single, and none stands at
an end. -/
def collapseBlanks (value : List Char) : List Char :=
  ((value.splitOn ' ').filter fun w ↦ !w.isEmpty).intersperse [' '] |>.flatten

end Entities

end XrBindings.Xml
