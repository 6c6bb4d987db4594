import XrBindings.Text.Cut
import XrBindings.Text.Quoted

/-!
# What can go wrong

A registry is rejected for a cause, and each cause is a constructor of `GenerationError` that
holds what the message needs. The cause determines its code, the code determines the stage of the
pipeline that reports it, and the wording stands in one place, `GenerationError.message`.

A few inputs are not rejected in this orderly way: the program stops at them without a message of
its own. They are the other constructors of `Failure`.
-/

namespace XrBindings

open XrBindings.Text

/-- The stages of the pipeline. -/
inductive Stage where
  | loader | resolver | renderer | lowering | emitter
  deriving DecidableEq, Repr

def Stage.name : Stage → String
  | .loader => "loader"
  | .resolver => "resolver"
  | .renderer => "renderer"
  | .lowering => "lowering"
  | .emitter => "emitter"

/-- The classes of rejection. -/
inductive ErrorCode where
  | malformedDocument | unknownDeclarationKind | duplicateDeclaration | danglingTypeReference
  | cyclicTypeDependency | identifierTooLong | ambiguousLengthLink | unhandledDeclarationKind
  deriving DecidableEq, Repr

namespace ErrorCode

def all : List ErrorCode :=
  [.malformedDocument, .unknownDeclarationKind, .duplicateDeclaration, .danglingTypeReference,
   .cyclicTypeDependency, .identifierTooLong, .ambiguousLengthLink, .unhandledDeclarationKind]

def name : ErrorCode → String
  | .malformedDocument => "MALFORMED_DOCUMENT"
  | .unknownDeclarationKind => "UNKNOWN_DECLARATION_KIND"
  | .duplicateDeclaration => "DUPLICATE_DECLARATION"
  | .danglingTypeReference => "DANGLING_TYPE_REFERENCE"
  | .cyclicTypeDependency => "CYCLIC_TYPE_DEPENDENCY"
  | .identifierTooLong => "IDENTIFIER_TOO_LONG"
  | .ambiguousLengthLink => "AMBIGUOUS_LENGTH_LINK"
  | .unhandledDeclarationKind => "UNHANDLED_DECLARATION_KIND"

/-- The code of a name; the table of codes is closed. -/
def ofName? (name : String) : Option ErrorCode := all.find? (·.name == name)

def stage : ErrorCode → Stage
  | .malformedDocument | .unknownDeclarationKind | .duplicateDeclaration
  | .danglingTypeReference => .loader
  | .cyclicTypeDependency => .resolver
  | .identifierTooLong => .renderer
  | .ambiguousLengthLink => .lowering
  | .unhandledDeclarationKind => .emitter

end ErrorCode

/-- Why a registry is rejected. -/
inductive GenerationError where
  /-- The document is not well-formed XML. -/
  | notWellFormed
  /-- The document is about something else. -/
  | rootElement (tag : String)
  /-- A member, parameter or prototype lacks a part; `markup` is the element itself. -/
  | missingPart (tag part markup : String)
  | namelessType (category markup : String)
  | namelessEnumValue
  | enumValueWithoutValue (value : String)
  | notAnInteger (owner attr text : String)
  | unreadableArraySize (text : String)
  | unreadableDeclaration (text : String)
  | unreadableFunctionPointer (text : String)
  | unreadableConstant (constant text : String)
  | offsetOutsideExtension (value : Option String)
  | incompleteExtension (extension : String)
  | commandWithoutPrototype
  | bitOutOfRange (value : Option String) (bit : Int) (width : Nat) (bitmask : String)
  | unknownHandleMacro (handle macroName : String)
  | unknownCategory (type category : String)
  | duplicateType (type : Option String)
  | duplicateEnumBlock (block : String)
  | duplicateEnumValue (value : Option String) (block : String)
  | sharedBit (bit : Int) (block : String) (first second : Option String)
  | duplicateCommand (command : String)
  | unknownExtendedEnum (value : Option String) (block : String)
  | undeclaredType (owner : Option String) (type : String)
  | undeclaredArraySize (owner field size : String)
  | undeclaredCommand (spelling target : String)
  | undeclaredAliasTarget (spelling : Option String) (target : String)
  | noZigType (type : String)
  | notAValue (value block : String)
  /-- The aliases met on the way, the last of which was met before. -/
  | aliasCycle (chain : List String)
  /-- The declarations that could not be placed, in document order. -/
  | dependencyCycle (types : List String)
  /-- The length of the identifier and the beginning of it. -/
  | identifierTooLong (length : Nat) (start : String)
  | tooManyLengths (command param length : String)
  | unknownLength (command param length : String)
  | pointerLength (command param length : String)
  /-- An alias has no declaration of its own to emit. -/
  | unhandledAlias (spelling : Option String)
  deriving DecidableEq, Repr

/-- A name in a message. Where the document gives none, the message says so. -/
def nameText (name : Option String) : String := name.getD "None"

/-- The longest identifier that is rendered. -/
def maxIdentifierLength : Nat := 1024

namespace GenerationError

def code : GenerationError → ErrorCode
  | .notWellFormed | .rootElement _ | .missingPart _ _ _ | .namelessType _ _ | .namelessEnumValue
  | .enumValueWithoutValue _ | .notAnInteger _ _ _ | .unreadableArraySize _
  | .unreadableDeclaration _ | .unreadableFunctionPointer _ | .unreadableConstant _ _
  | .offsetOutsideExtension _ | .incompleteExtension _ | .commandWithoutPrototype
  | .bitOutOfRange _ _ _ _ => .malformedDocument
  | .unknownHandleMacro _ _ | .unknownCategory _ _ => .unknownDeclarationKind
  | .duplicateType _ | .duplicateEnumBlock _ | .duplicateEnumValue _ _ | .sharedBit _ _ _ _
  | .duplicateCommand _ => .duplicateDeclaration
  | .unknownExtendedEnum _ _ | .undeclaredType _ _ | .undeclaredArraySize _ _ _
  | .undeclaredCommand _ _ | .undeclaredAliasTarget _ _ | .noZigType _
  | .notAValue _ _ => .danglingTypeReference
  | .aliasCycle _ | .dependencyCycle _ => .cyclicTypeDependency
  | .identifierTooLong _ _ => .identifierTooLong
  | .tooManyLengths _ _ _ | .unknownLength _ _ _ | .pointerLength _ _ _ => .ambiguousLengthLink
  | .unhandledAlias _ => .unhandledDeclarationKind

def stage (e : GenerationError) : Stage := e.code.stage

def message : GenerationError → String
  | .notWellFormed => "Registry is not valid XML"
  | .rootElement tag => "Root element is <" ++ tag ++ ">, expected <registry>"
  | .missingPart tag part markup =>
    "<" ++ tag ++ "> is missing its <" ++ part ++ ">: " ++ markup
  | .namelessType category markup =>
    "<type category=" ++ quoted category ++ "> has no name: " ++ markup
  | .namelessEnumValue => "<enum> without a name attribute"
  | .enumValueWithoutValue value => "Enum value " ++ value ++ " has no value"
  | .notAnInteger owner attr text =>
    owner ++ " has a non-integer " ++ attr ++ ": " ++ quoted text
  | .unreadableArraySize text => "Unreadable array size: " ++ quoted text
  | .unreadableDeclaration text => "Unreadable declaration: " ++ quoted text
  | .unreadableFunctionPointer text => "Unreadable function pointer typedef: " ++ quoted text
  | .unreadableConstant constant text =>
    "API constant " ++ constant ++ " has an unreadable value: " ++ quoted text
  | .offsetOutsideExtension value =>
    "Enum value " ++ nameText value ++ " uses an offset outside an extension"
  | .incompleteExtension extension => "Extension " ++ extension ++ " lacks a name or number"
  | .commandWithoutPrototype => "<command> without a <proto>"
  | .bitOutOfRange value bit width bitmask =>
    nameText value ++ " uses bit " ++ toString bit ++ " of " ++ toString width ++ "-bit " ++ bitmask
  | .unknownHandleMacro handle macroName =>
    "Handle " ++ handle ++ " uses unknown macro " ++ quoted macroName
  | .unknownCategory type category =>
    "Type " ++ type ++ " has unknown category " ++ quoted category
  | .duplicateType type => "Type " ++ nameText type ++ " is declared twice"
  | .duplicateEnumBlock block => "Enum block " ++ block ++ " is declared twice"
  | .duplicateEnumValue value block =>
    "Enum value " ++ nameText value ++ " in " ++ block ++ " is declared twice with different values"
  | .sharedBit bit block first second =>
    "Bit " ++ toString bit ++ " of " ++ block ++ " is claimed by both " ++ nameText first ++
      " and " ++ nameText second
  | .duplicateCommand command => "Command " ++ command ++ " is declared twice"
  | .unknownExtendedEnum value block => nameText value ++ " extends unknown enum " ++ block
  | .undeclaredType owner type => nameText owner ++ " refers to undeclared type " ++ type
  | .undeclaredArraySize owner field size =>
    owner ++ "." ++ field ++ " uses undeclared array size " ++ size
  | .undeclaredCommand spelling target =>
    "Command alias " ++ spelling ++ " targets undeclared command " ++ target
  | .undeclaredAliasTarget spelling target =>
    "Alias " ++ nameText spelling ++ " resolves to undeclared type " ++ target
  | .noZigType type => "No Zig type for undeclared " ++ type
  | .notAValue value block => value ++ " is not a value of " ++ block
  | .aliasCycle chain => "Alias cycle: " ++ joinWith " -> " chain
  | .dependencyCycle types => "By-value dependency cycle between: " ++ joinWith ", " types
  | .identifierTooLong length start =>
    "Identifier of " ++ toString length ++ " characters exceeds " ++
      toString maxIdentifierLength ++ ": " ++ start ++ "..."
  | .tooManyLengths command param length =>
    command ++ "." ++ param ++ " names several length candidates: " ++ length
  | .unknownLength command param length =>
    command ++ "." ++ param ++ " has length " ++ length ++ ", which is not a parameter"
  | .pointerLength command param length =>
    command ++ "." ++ param ++ " has length " ++ length ++ ", which is a pointer parameter"
  | .unhandledAlias spelling => "No emission rule for AliasDecl " ++ nameText spelling

end GenerationError

/-- Why no answer comes out. -/
inductive Failure where
  /-- The registry is rejected. -/
  | rejected (error : GenerationError)
  /-- A part of a version number is not a number. -/
  | unreadableVersion
  /-- The integer of an enum value at a negative bit is needed, or storage of a negative width. -/
  | negativeBit
  /-- An integer has more digits than are read or written in base ten. -/
  | tooManyDigits
  /-- An integer has more signs in front of it than there is room for. -/
  | tooManySigns
  /-- The walk from an alias of a result code goes in a circle, and the program never stops. -/
  | endlessWalk
  /-- A name is needed that the document does not give. -/
  | missingName
  /-- A discriminant is declared with an empty list of values. -/
  | emptyDiscriminant
  /-- An alias without a name leads into a cycle, which therefore cannot be written. -/
  | namelessCycle
  /-- The document declares an encoding that is not known. -/
  | unknownEncoding
  /-- A parameter that shares its name with an array is no pointer itself. -/
  | notAnArray
  /-- An identifier is asked for in a case style that does not exist. -/
  | unknownStyle (name : String)
  /-- A flag is set that the layout does not have. -/
  | unknownFlag (layout flag : String)
  /-- A header is asked for without a version. -/
  | emptyVersion
  /-- Something is asked for under a name that the registry does not declare. -/
  | unknownName
  deriving DecidableEq, Repr

def Failure.message? : Failure → Option String
  | .rejected error => some error.message
  | .unknownStyle name => some ("Unknown case style: " ++ name)
  | .unknownFlag layout flag => some (layout ++ " has no flag " ++ flag)
  | .emptyVersion => some "registry_version must not be empty"
  | _ => none

abbrev Result (α : Type) := Except Failure α

/-- Reject the registry. -/
def reject {α : Type} (error : GenerationError) : Result α := .error (.rejected error)

end XrBindings
