import XrBindings.Bindings.EnumMembers
import XrBindings.Flags.Source

/-!
# Sets of flags of a registry

The values of an enum of bits become flags or masks: a value of one bit is a flag, whether it is
given as a position or as an integer, and any other value is a mask.
-/

namespace XrBindings

open XrBindings.Naming

namespace FlagLayout

def used (l : FlagLayout) : List String := l.bits.map (·.1) ++ l.masks.map (·.1)

/-- The bit of an integer that has one bit. -/
def singleBit? (n : Int) : Option Nat :=
  if n > 0 && n.toNat == 1 <<< n.toNat.log2 then some n.toNat.log2 else none

/-- Add a value that is no alias. A mask is cut to the width of the storage, which has to have
one. -/
def addValue (r : Renderer) (enumName : String) (l : FlagLayout) (v : EnumValue) :
    Result FlagLayout := do
  let (_, short, long) ← EnumMembers.candidates r enumName v true
  let name := uniqueName short long l.used
  let value ← EnumMembers.integer v
  match v.bit?, singleBit? value with
  | some position, _ => return { l with bits := l.bits ++ [(name, position.toNat)] }
  | none, some position => return { l with bits := l.bits ++ [(name, position)] }
  | none, none =>
    if l.width < 0 then .error .negativeBit
    else return { l with masks := l.masks ++ [(name, l.truncate value)] }

/-- The layout of a set of flags whose bits an enum names. -/
def ofEnum (r : Renderer) (name : String) (width : Int) (decl : EnumDecl) : Result FlagLayout := do
  let l ← (decl.values.filter fun v ↦ !v.isAlias).foldlM (addValue r decl.name)
    { name, width }
  return { l with bits := l.bits.mergeSort fun a b ↦ decide (a.2 ≤ b.2) }

end FlagLayout

/-- The layout of a set of flags; without an enum no bit has a name. -/
def Context.flagLayout (c : Context) (name : String) (bitsEnum : Option String) (width : Int) :
    Result FlagLayout :=
  match (bitsEnum.filter fun b ↦ !b.isEmpty).bind c.document.enums.get? with
  | none => .ok { name, width }
  | some decl => FlagLayout.ofEnum c.renderer name width decl

end XrBindings
