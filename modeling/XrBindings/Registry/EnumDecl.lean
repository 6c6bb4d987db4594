import XrBindings.Number.IntegerText

/-!
# Enums and their values

An enum value is a number, a bit position, or another spelling of a value. The values of an enum
come from its own block and from the features and extensions that extend it, so the same value may
be met several times; it is kept once, provided that every mention agrees. No two values of one
enum may claim the same bit.
-/

namespace XrBindings

/-- What an enum value stands for. -/
inductive EnumMeaning where
  | number (value : Int)
  | bit (position : Int)
  /-- The value of the name `target`. -/
  | aliasOf (target : String)
  deriving DecidableEq, Repr

/-- A named value of an enum. A value that an extension computes from an offset may be nameless. -/
structure EnumValue where
  name : Option String
  meaning : EnumMeaning
  /-- The extension that introduces the value, or `core`. -/
  origin : String
  deriving DecidableEq, Repr

namespace EnumValue

def isAlias (v : EnumValue) : Bool := match v.meaning with
  | .aliasOf _ => true
  | _ => false

def aliasTarget? (v : EnumValue) : Option String := match v.meaning with
  | .aliasOf target => some target
  | _ => none

def bit? (v : EnumValue) : Option Int := match v.meaning with
  | .bit position => some position
  | _ => none

/-- The integer, which an alias does not have by itself. A bit position below zero has none
either, and asking for it fails. -/
def integer? (v : EnumValue) : Result (Option Int) := match v.meaning with
  | .number value => .ok (some value)
  | .bit position =>
    if position < 0 then .error .negativeBit
    else .ok (some ((1 <<< position.toNat : Nat) : Int))
  | .aliasOf _ => .ok none

/-- Aliases alone have no integer of their own. -/
theorem integer?_eq_ok_none_iff {v : EnumValue} : v.integer? = .ok none ↔ v.isAlias = true := by
  rw [integer?, isAlias]
  cases v.meaning with
  | bit position => dsimp only; split <;> simp
  | _ => simp

/-- What has an integer is no alias. -/
theorem isAlias_eq_false_of_integer? {v : EnumValue} {n : Int} (h : v.integer? = .ok (some n)) :
    v.isAlias = false := by
  rw [← Bool.not_eq_true, ← integer?_eq_ok_none_iff, h]
  simp

end EnumValue

/-- An enum block: its values in the order in which they are met. -/
structure EnumDecl where
  name : String
  /-- `enum`, `bitmask`, or whatever else the registry says. -/
  kind : String
  values : List EnumValue
  bitWidth : Int := 32
  deriving DecidableEq, Repr

namespace EnumDecl

/-- The values are bits. -/
def isBitmask (d : EnumDecl) : Bool := d.kind == "bitmask"

def find? (d : EnumDecl) (name : String) : Option EnumValue :=
  d.values.find? (·.name == some name)

/-- Whether two mentions of a name agree: same integer, same alias. -/
def agree (known value : EnumValue) : Result Bool := do
  let a ← known.integer?
  let b ← value.integer?
  return a == b && known.aliasTarget? == value.aliasTarget?

/-- Add a mention of a value. -/
def addValue (d : EnumDecl) (value : EnumValue) : Result EnumDecl :=
  match d.values.find? (·.name == value.name) with
  | some known => do
    if ← agree known value then .ok d else reject (.duplicateEnumValue value.name d.name)
  | none =>
    match value.bit? with
    | none => .ok { d with values := d.values ++ [value] }
    | some position =>
      match d.values.find? (·.bit? == some position) with
      | some owner =>
        Number.rejectShowing position (.sharedBit position d.name owner.name value.name)
      | none => .ok { d with values := d.values ++ [value] }

end EnumDecl

end XrBindings
