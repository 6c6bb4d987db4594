import XrBindings.Registry.Field

/-!
# Type declarations

The kinds of type that a registry declares. Every declaration has a name, with one exception: an
alias of a function pointer takes its name from a declaration that an alias does not have, so it
may be nameless. Names of types are therefore optional where they identify a declaration.
-/

namespace XrBindings

/-- The name under which a type is declared. -/
abbrev TypeName := Option String

/-- How many bits a handle has: those of a pointer, or always 64. -/
inductive Dispatch where
  | wide | narrow
  deriving DecidableEq, Repr

/-- A type declaration. -/
inductive TypeDecl where
  /-- Another spelling of the type `target`. -/
  | aliasOf (name : TypeName) (target category : String)
  /-- A scalar with another type behind it, or an incomplete type. -/
  | base (name : String) (underlying : Option String)
  /-- A type that another header declares. -/
  | external (name required : String)
  | handle (name : String) (dispatch : Dispatch) (parent : Option String)
  /-- A set of flags, whose bits an enum may name. -/
  | bitmask (name : String) (width : Nat) (bitsEnum : Option String)
  /-- An enum; its values stand in the enum block of that name. -/
  | enum (name : String)
  | struct (name : String) (fields : List Field) (extended : List String) (returnedOnly : Bool)
  | union (name : String) (fields : List Field)
  | functionPointer (name : String) (returns : Field) (params : List Field)
  deriving DecidableEq, Repr

namespace TypeDecl

def name : TypeDecl → TypeName
  | .aliasOf name _ _ => name
  | .base name _ | .external name _ | .handle name _ _ | .bitmask name _ _ | .enum name
  | .struct name _ _ _ | .union name _ | .functionPointer name _ _ => some name

def kind : TypeDecl → String
  | .aliasOf _ _ _ => "alias"
  | .base _ _ => "basetype"
  | .external _ _ => "external"
  | .handle _ _ _ => "handle"
  | .bitmask _ _ _ => "bitmask"
  | .enum _ => "enum"
  | .struct _ _ _ _ => "struct"
  | .union _ _ => "union"
  | .functionPointer _ _ _ => "funcpointer"

def aliasTarget? : TypeDecl → Option String
  | .aliasOf _ target _ => some target
  | _ => none

/-- The declaration is another spelling of a type. -/
def isAlias (d : TypeDecl) : Bool := d.aliasTarget?.isSome

/-- The fields that a declaration lays out in memory. -/
def layoutFields : TypeDecl → List Field
  | .struct _ fields _ _ | .union _ fields => fields
  | _ => []

end TypeDecl

end XrBindings
