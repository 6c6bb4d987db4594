import XrBindings.Number.Binary64
import XrBindings.Registry.EnumDecl
import XrBindings.Registry.TypeDecl
import XrBindings.Table

/-!
# The registry model

What a registry document declares, once it has been read and checked. Tables keep the order of
the document, because everything that is generated follows it.
-/

namespace XrBindings

/-- The value of an API constant. -/
inductive ApiConstant where
  | integer (value : Int)
  | real (value : Number.Binary64)
  /-- The size in bytes of a type. -/
  | sizeOf (typeName : String)
  deriving DecidableEq, Repr

/-- The origin of what no extension introduces. -/
def coreOrigin : String := "core"

/-- A command. -/
structure CommandDecl where
  name : String
  /-- The type of the result, as a field without a name. -/
  returns : Field
  params : List Field
  successCodes : List String := []
  errorCodes : List String := []
  origin : String := coreOrigin
  deriving DecidableEq, Repr

/-- Another spelling of a command. -/
structure CommandAlias where
  name : String
  target : String
  deriving DecidableEq, Repr

/-- The names that a feature or an extension brings in, in the order of its `require` blocks. -/
structure Requirements where
  types : List String := []
  commands : List String := []
  enums : List (Option String) := []
  deriving DecidableEq, Repr

/-- A version of the core API. -/
structure Feature where
  name : String
  number : String
  required : Requirements
  deriving DecidableEq, Repr

/-- An extension of the API. -/
structure Extension where
  name : String
  number : Int
  vendorTag : String
  version : Int
  extType : String
  promotedTo : Option String
  depends : String
  required : Requirements
  deriving DecidableEq, Repr

/-- A registry. -/
structure Document where
  /-- The tags of authors, which end the names of their declarations. -/
  tags : List String
  types : Table TypeName TypeDecl
  enums : Table String EnumDecl
  commands : Table String CommandDecl
  commandAliases : Table String CommandAlias
  apiConstants : Table String ApiConstant
  features : List Feature
  extensions : List Extension
  /-- Which feature or extension first brings in a name. -/
  origins : Table (Option String) String
  version : String

namespace Document

/-- The extension that introduces a name, or `core`. -/
def originOf (d : Document) (name : Option String) : String :=
  (d.origins.get? name).getD coreOrigin

/-- No extension introduces the name. -/
def isCore (d : Document) (name : Option String) : Bool := d.originOf name == coreOrigin

/-- The type a name declares. -/
def type? (d : Document) (name : String) : Option TypeDecl := d.types.get? (some name)

/-- The name declares a type. -/
def hasType (d : Document) (name : String) : Bool := d.types.contains (some name)

end Document

end XrBindings
