import XrBindings.Bindings.ResultCheck
import XrBindings.Bindings.StructType

/-!
# Safe wrappers of commands

A wrapper calls a command through its pointer. Slices stand for arrays and carry their length;
where several slices share a length, the wrapper asserts that they agree. Results are returned,
not written through pointers, and a result code is checked and becomes an error.

A parameter contributes to up to three places: the parameters of the wrapper, the lines before the
call, and the arguments of the call, of which there is always exactly one.
-/

namespace XrBindings

open XrBindings.Text

/-- What one parameter of a command contributes to its wrapper. -/
structure WrapperPart where
  /-- A parameter of the wrapper. -/
  param : Option String := none
  /-- Lines before the call. -/
  prologue : List String := []
  /-- The argument of the call. -/
  argument : String
  deriving DecidableEq, Repr

/-- A result of a wrapper. -/
structure WrapperOutput where
  name : String
  type : String
  deriving DecidableEq, Repr

namespace Context

/-! ## Slices -/

/-- The outermost pointer of an array. -/
def outerPointer (f : Field) : Result PointerLevel :=
  match f.pointers with
  | outer :: _ => .ok outer
  | [] => .error .notAnArray

/-- The slice that stands for an array. -/
def sliceType (c : Context) (f : Field) : Result String := do
  let base ← c.baseType f.typeName
  let element := pointerType base (f.pointers.drop 1)
  let element := if element == "void" then "u8" else element
  let outer ← outerPointer f
  return (if outer.nullable then "?" else "") ++ "[]" ++ (if outer.constant then "const " else "")
    ++ element

def sliceLength (c : Context) (f : Field) : Result String := do
  let name ← c.renderer.fieldName f.name
  let outer ← outerPointer f
  return if outer.nullable then "(if (" ++ name ++ ") |items| items.len else 0)"
    else name ++ ".len"

def lengthArgument (c : Context) (f : Field) : Result String := do
  let name ← c.renderer.fieldName f.name
  let outer ← outerPointer f
  return if outer.nullable then "if (" ++ name ++ ") |items| @intCast(items.len) else 0"
    else "@intCast(" ++ name ++ ".len)"

/-- The arrays of these names. Of parameters of one name the last counts. -/
def namedParams (params : List LoweredParam) (names : List String) : List Field :=
  names.filterMap fun n ↦ (params.reverse.find? (·.param.name == n)).map (·.param)

/-- The part of an elided length: it is that of the first array, and the others have to agree. -/
def lengthPart (c : Context) (arrays : List Field) : Result WrapperPart :=
  match arrays with
  | [] => .error .notAnArray
  | first :: others => do
    let argument ← c.lengthArgument first
    let prologue ← others.mapM fun other ↦ do
      let a ← c.sliceLength first
      let b ← c.sliceLength other
      return "std.debug.assert(" ++ a ++ " == " ++ b ++ ");"
    return { prologue, argument }

/-! ## Parts -/

/-- The value with which a result starts: a struct with a discriminant has it set. -/
def outputStart (c : Context) (f : Field) (pointee : String) : Result String := do
  if f.pointers.length == 1 then
    match ← c.terminal? f.typeName with
    | some decl => return if decl.hasDiscriminant then pointee ++ ".empty()" else "undefined"
    | none => return "undefined"
  else return "undefined"

def wrapperPart (c : Context) (params : List LoweredParam) (p : LoweredParam) :
    Result WrapperPart := do
  let f := p.param
  let name ← c.renderer.fieldName f.name
  if p.elided then c.lengthPart (namedParams params p.lengthOf)
  else if p.lengthParam.isSome then
    let type ← c.sliceType f
    let outer ← outerPointer f
    return {
      param := some (name ++ ": " ++ type)
      argument :=
        if outer.nullable then "if (" ++ name ++ ") |items| items.ptr else null"
        else name ++ ".ptr" }
  else if p.direction == .output then
    let pointee ← c.pointeeType f
    let start ← c.outputStart f pointee
    return {
      prologue := ["var " ++ name ++ ": " ++ pointee ++ " = " ++ start ++ ";"]
      argument := "&" ++ name }
  else
    let type ← c.fieldType f
    return { param := some (name ++ ": " ++ type), argument := name }

/-! ## Results -/

/-- Fields of a struct type or value, in braces. -/
def braced (items : List String) : String := "\x7b " ++ joinWith ", " items ++ " \x7d"

def outputTypes (outputs : List WrapperOutput) : List String :=
  outputs.map fun o ↦ o.name ++ ": " ++ o.type

def outputValues (outputs : List WrapperOutput) : List String :=
  outputs.map fun o ↦ "." ++ o.name ++ " = " ++ o.name

/-- The type of the results, and the statement that returns them if there are any. -/
def returned : List WrapperOutput → String × List String
  | [] => ("void", [])
  | [o] => (o.type, ["return " ++ o.name ++ ";"])
  | outputs =>
    ("struct " ++ braced (outputTypes outputs),
      ["return ." ++ braced (outputValues outputs) ++ ";"])

/-- The type that a wrapper returns, and the statements of the call and after it. -/
def callAndReturn (c : Context) (s : WrapperSignature) (call : String)
    (outputs : List WrapperOutput) : Result (String × List String) := do
  let (okType, statements) := returned outputs
  match s.partition with
  | some p =>
    let errorSet ← c.errorSetName p.enumName
    let check ← c.checkName p.enumName
    return (errorSet ++ "!" ++ okType, ["try " ++ check ++ "(" ++ call ++ ");"] ++ statements)
  | none =>
    let raw ← c.fieldType s.command.returns
    if raw == "void" then return (okType, [call ++ ";"] ++ statements)
    else if outputs.isEmpty then return (raw, ["return " ++ call ++ ";"])
    else
      return ("struct " ++ braced (("result: " ++ raw) :: outputTypes outputs),
        ["const result = " ++ call ++ ";",
         "return ." ++ braced (".result = result" :: outputValues outputs) ++ ";"])

/-- The wrapper of a command, as a member of the dispatch table. -/
def wrapperSource (c : Context) (s : WrapperSignature) : Result (List String) := do
  let parts ← s.params.mapM (c.wrapperPart s.params)
  let call := "self." ++ s.command.name ++ ".?(" ++ joinWith ", " (parts.map (·.argument)) ++ ")"
  let outputs ← s.outputs.mapM fun p ↦ do
    let name ← c.renderer.fieldName p.param.name
    let type ← c.pointeeType p.param
    return ({ name, type } : WrapperOutput)
  let (returnType, statements) ← c.callAndReturn s call outputs
  let name ← c.renderer.commandName s.command.name
  let params := joinWith ", " ("self: Dispatch" :: parts.filterMap (·.param))
  return ["    pub fn " ++ name ++ "(" ++ params ++ ") " ++ returnType ++ " \x7b"]
    ++ (((parts.map (·.prologue)).flatten ++ statements).map ("        " ++ ·))
    ++ ["    \x7d"]

end Context

end XrBindings
