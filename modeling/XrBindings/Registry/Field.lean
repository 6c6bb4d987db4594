/-!
# Fields

A field is a typed name with C indirection: a member of a struct or union, a parameter of a
command or function pointer, or, with an empty name, what a command returns. Levels of
indirection are listed from the outermost.
-/

namespace XrBindings

/-- How many objects stand behind a pointer. -/
inductive Multiplicity where
  | single | fixedArray | lengthLinked | nullTerminated
  deriving DecidableEq, Repr

/-- One level of indirection. In `const char*` the level is constant: constness is that of the
pointee. -/
structure PointerLevel where
  /-- The pointer may be null. -/
  nullable : Bool
  /-- What it points to may not be written through it. -/
  constant : Bool
  multiplicity : Multiplicity := .single
  /-- Where the element count is found, as the registry writes it. -/
  length : Option String := none
  deriving DecidableEq, Repr

/-- A typed name. -/
structure Field where
  name : String
  typeName : String
  /-- The levels of indirection, outermost first. -/
  pointers : List PointerLevel := []
  /-- The base type is declared constant. -/
  isConst : Bool := false
  /-- The extent of a fixed array: a number, or the name of a constant. -/
  arraySize : Option String := none
  optional : Bool := false
  /-- The lengths of the levels, as the registry writes them. -/
  length : Option String := none
  /-- The values a discriminant may take, as the registry writes them. -/
  values : Option String := none
  deriving DecidableEq, Repr

namespace Field

def isPointer (f : Field) : Bool := !f.pointers.isEmpty

/-- How many objects the field holds or points to. -/
def multiplicity (f : Field) : Multiplicity :=
  match f.pointers with
  | level :: _ => level.multiplicity
  | [] => if f.arraySize.isSome then .fixedArray else .single

end Field

end XrBindings
