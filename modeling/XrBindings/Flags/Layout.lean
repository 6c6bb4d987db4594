import XrBindings.Failure

/-!
# The algebra of flags

A set of flags is a number whose bits have names. Some bits have no name; a value keeps those that
are set. The operations work on the number, so that they agree with what the bindings compute:
union, intersection and difference keep the bits without a name, while the complement holds named
flags only.
-/

namespace XrBindings

/-- A value of a set of flags: the flags that are set, and the bits without a name. -/
structure FlagValue where
  flags : List String := []
  undefinedBits : Int := 0
  deriving DecidableEq, Repr

/-- The bits of a set of flags. A name of several bits, or of none, is a mask. -/
structure FlagLayout where
  name : String
  /-- The number of bits. Below zero there is no storage, and no value has a number. -/
  width : Int
  bits : List (String × Nat) := []
  masks : List (String × Nat) := []
  deriving DecidableEq, Repr

namespace FlagLayout

def capacity (l : FlagLayout) : Nat := 1 <<< l.width.toNat

/-- Values have numbers only if the width is not below zero. -/
def checkWidth (l : FlagLayout) : Result Unit :=
  if l.width < 0 then .error .negativeBit else .ok ()

def storageMask (l : FlagLayout) : Result Nat := do
  l.checkWidth
  return l.capacity - 1

def definedMask (l : FlagLayout) : Nat := l.bits.foldl (fun mask b ↦ mask ||| 1 <<< b.2) 0

/-- The bit of a flag. Of flags of one name the last counts. -/
def position? (l : FlagLayout) (flag : String) : Option Nat := l.bits.reverse.lookup flag

/-- The flag of a bit. Of flags of one bit the last counts. -/
def flagAt? (l : FlagLayout) (position : Nat) : Option String :=
  (l.bits.reverse.find? (·.2 == position)).map (·.1)

/-- Every bit of the storage with its flag, if it has one. -/
def fields (l : FlagLayout) : List (Nat × Option String) :=
  (List.range l.width.toNat).map fun i ↦ (i, l.flagAt? i)

/-- The bits of an integer that fit into the storage; a negative one has infinitely many. -/
def truncate (l : FlagLayout) (bits : Int) : Nat := (bits % (l.capacity : Int)).toNat

def without (a b : Nat) : Nat := a ^^^ (a &&& b)

/-- The number of a value. -/
def toInt (l : FlagLayout) (v : FlagValue) : Result Nat := do
  let positions ← v.flags.mapM fun flag ↦ match l.position? flag with
    | some p => .ok p
    | none => .error (.unknownFlag l.name flag)
  l.checkWidth
  return l.truncate v.undefinedBits ||| positions.foldl (fun n p ↦ n ||| 1 <<< p) 0 % l.capacity

/-- The value of a number. -/
def fromInt (l : FlagLayout) (bits : Int) : Result FlagValue := do
  l.checkWidth
  let n := l.truncate bits
  return {
    flags := ((l.bits.filter fun b ↦ n.testBit b.2).map (·.1)).eraseDups
    undefinedBits := without n l.definedMask }

def merge (l : FlagLayout) (a b : FlagValue) : Result FlagValue := do
  let m ← l.toInt a
  let n ← l.toInt b
  l.fromInt (m ||| n : Nat)

def intersect (l : FlagLayout) (a b : FlagValue) : Result FlagValue := do
  let m ← l.toInt a
  let n ← l.toInt b
  l.fromInt (m &&& n : Nat)

def subtract (l : FlagLayout) (a b : FlagValue) : Result FlagValue := do
  let m ← l.toInt a
  let n ← l.toInt b
  l.fromInt (without m n)

/-- The named flags that are not set. -/
def complement (l : FlagLayout) (a : FlagValue) : Result FlagValue := do
  let m ← l.toInt a
  l.fromInt (without l.definedMask m)

/-- Everything that is set in `b` is set in `a`. -/
def contains (l : FlagLayout) (a b : FlagValue) : Result Bool := do
  let m ← l.toInt a
  let n ← l.toInt b
  return m &&& n == n

end FlagLayout

end XrBindings
