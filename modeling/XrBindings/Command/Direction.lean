import XrBindings.Failure
import XrBindings.Registry.Declarator
import XrBindings.Zig.Identifier

/-!
# Directions of parameters

Whether a command reads a parameter or writes through it follows from the outermost pointer of the
parameter. A pointer to constant data is read; so is anything that is no pointer. A pointer to a
single object that may not be null is where the command leaves a result.

An array has its length in another parameter. The link is usable when it names a parameter that
holds a plain count; a path or an expression is left as it is.
-/

namespace XrBindings

/-- What a command does with a parameter. -/
inductive Direction where
  | input | output | inOut | arrayInOut
  deriving DecidableEq, Repr

namespace Direction

def name : Direction → String
  | .input => "in"
  | .output => "out"
  | .inOut => "in_out"
  | .arrayInOut => "array_in_out"

/-- The direction of a parameter. Whether its length is linked to a parameter may be known from
elsewhere. A single untyped buffer stays with the caller. -/
def classify (param : Field) (lengthParam : Option String) : Direction :=
  match param.pointers with
  | [] => .input
  | outer :: inner =>
    if outer.constant then .input
    else if lengthParam.isSome || outer.multiplicity == .lengthLinked then .arrayInOut
    else if outer.nullable || outer.multiplicity != .single then .inOut
    else if param.typeName == "void" && inner.isEmpty then .inOut
    else .output

end Direction

/-- The parameter that holds the element count of a parameter, if the count can be derived from
the array. The link is ambiguous when it has more lengths than the parameter has pointers, or
names something that is no plain parameter of the command; of parameters of one name the last
counts. -/
def lengthLink (command : String) (param : Field) (params : List Field) :
    Result (Option String) :=
  match Declarator.listAttribute param.length with
  | [] => .ok none
  | head :: rest =>
    let length := param.length.getD ""
    if param.pointers.isEmpty then .ok none
    else if rest.length + 1 > param.pointers.length then
      reject (.tooManyLengths command param.name length)
    else if head == "null-terminated" || head == "1" || !Zig.isPlainWord head.toList then .ok none
    else
      match params.reverse.find? (·.name == head) with
      | none => reject (.unknownLength command param.name head)
      | some target =>
        if target.pointers.isEmpty then .ok (some head)
        else reject (.pointerLength command param.name head)

end XrBindings
