import XrBindings.Command.Direction
import XrBindings.Command.ResultPartition

/-!
# Signatures of wrappers

A command seen by its safe wrapper. A parameter that only holds the length of arrays is elided:
the wrapper derives it from the slices that stand for the arrays. Parameters that the command
writes a single object to become results.
-/

namespace XrBindings

/-- A parameter of a command as its wrapper sees it. -/
structure LoweredParam where
  param : Field
  direction : Direction
  /-- The parameter that holds the element count. -/
  lengthParam : Option String := none
  /-- The parameter is derived from the arrays in `lengthOf`. -/
  elided : Bool := false
  /-- The arrays whose length this is, in the order of the parameters. -/
  lengthOf : List String := []
  deriving DecidableEq, Repr

/-- How many results a wrapper returns. -/
inductive ReturnShape where
  | none | single | aggregate
  deriving DecidableEq, Repr

def ReturnShape.name : ReturnShape → String
  | .none => "void"
  | .single => "single"
  | .aggregate => "aggregate"

/-- A command as its wrapper sees it. -/
structure WrapperSignature where
  command : CommandDecl
  params : List LoweredParam
  /-- How the result of the command is split, if it has to be checked. -/
  partition : Option ResultPartition
  deriving DecidableEq, Repr

namespace WrapperSignature

def visibleParams (s : WrapperSignature) : List LoweredParam :=
  s.params.filter fun p ↦ !p.elided && p.direction != .output

def outputs (s : WrapperSignature) : List LoweredParam :=
  s.params.filter (·.direction == .output)

/-- How many results there are. -/
def returnShape (s : WrapperSignature) : ReturnShape :=
  match s.outputs with
  | [] => .none
  | [_] => .single
  | _ => .aggregate

end WrapperSignature

namespace CommandDecl

/-- The length parameters of the arrays of a command. -/
def lengthLinks (c : CommandDecl) : Result (Table String String) :=
  c.params.foldlM (fun links p ↦ do
    match ← lengthLink c.name p c.params with
    | some length => return links.insert p.name length
    | none => return links) Table.empty

/-- The arrays whose length a parameter holds. -/
def arraysOf (links : Table String String) (name : String) : List String :=
  (links.entries.filter (·.2 == name)).map (·.1)

/-- A parameter as the wrapper sees it. -/
def lowerParam (links : Table String String) (p : Field) : LoweredParam :=
  match arraysOf links p.name with
  | [] =>
    let lengthParam := links.get? p.name
    { param := p, direction := Direction.classify p lengthParam, lengthParam }
  | arrays => { param := p, direction := .input, elided := true, lengthOf := arrays }

/-- A command as its wrapper sees it. -/
def lower (c : CommandDecl) (partitions : Table String ResultPartition) :
    Result WrapperSignature := do
  let links ← c.lengthLinks
  return {
    command := c
    params := c.params.map (lowerParam links)
    partition := if c.returns.pointers.isEmpty then partitions.get? c.returns.typeName else none }

end CommandDecl

end XrBindings
