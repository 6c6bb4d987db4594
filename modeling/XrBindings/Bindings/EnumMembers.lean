import XrBindings.Bindings.Context
import XrBindings.Naming.Unique

/-!
# Enums in Zig

An enum in Zig has distinct values, while an enum of the registry may give one value several
names. The first name of each value becomes a field. The others, and the aliases, become constants
that refer to a field, so that every name of the registry has a field that it stands for.
-/

namespace XrBindings

open XrBindings.Naming

structure EnumField where
  name : String
  value : Int
  /-- The name in the registry. -/
  source : String
  deriving DecidableEq, Repr

/-- The layout of an enum. -/
structure EnumMembers where
  fields : List EnumField := []
  /-- Names of constants, each with the field that it stands for. -/
  constants : List (String × String) := []
  /-- The field that each name of the registry stands for. -/
  tags : Table String String := .empty

namespace EnumMembers

def used (m : EnumMembers) : List String := m.fields.map (·.name) ++ m.constants.map (·.1)

/-- The names that a value can have: the short one, beside its enum, and the long one. -/
def candidates (r : Renderer) (enumName : String) (v : EnumValue) (isBitmask : Bool) :
    Result (String × String × String) := do
  let source ← Context.required v.name
  let long ← r.render source .snake
  return (source, r.enumValueName enumName source isBitmask, long)

/-- The integer of a value that is no alias. -/
def integer (v : EnumValue) : Result Int := do
  match ← v.integer? with
  | some n => return n
  | none => return 0

/-- Add a value that is no alias. -/
def addValue (r : Renderer) (enumName : String) (m : EnumMembers) (v : EnumValue) :
    Result EnumMembers := do
  let (source, short, long) ← candidates r enumName v false
  let name := uniqueName short long m.used
  let value ← integer v
  match m.fields.find? (·.value == value) with
  | some field => return { m with
      constants := m.constants ++ [(name, field.name)]
      tags := m.tags.insert source field.name }
  | none => return { m with
      fields := m.fields ++ [{ name, value, source }]
      tags := m.tags.insert source name }

/-- The value that an alias finally stands for, if its enum has it. -/
def aliasTerminal? (decl : EnumDecl) (v : EnumValue) : Option String :=
  match Chain.follow (ResultPartition.valueLinks decl) v.name with
  | .arrives (some last) => (decl.find? last).map fun _ ↦ last
  | _ => none

/-- Add an alias. It has no constant of its own where its name is in use. -/
def addAlias (r : Renderer) (decl : EnumDecl) (m : EnumMembers) (v : EnumValue) : EnumMembers :=
  match v.name, (aliasTerminal? decl v).bind m.tags.get? with
  | some source, some field =>
    let name := r.enumValueName decl.name source false
    let m := { m with tags := m.tags.insert source field }
    if m.used.contains name then m
    else { m with constants := m.constants ++ [(name, field)] }
  | _, _ => m

def ofDecl (r : Renderer) (decl : EnumDecl) : Result EnumMembers := do
  let m ← (decl.values.filter fun v ↦ !v.isAlias).foldlM (addValue r decl.name) {}
  return (decl.values.filter (·.isAlias)).foldl (addAlias r decl) m

/-- The integer has a signed form of 32 bits. -/
def fitsInt32 (n : Int) : Bool := -2147483648 ≤ n && n ≤ 2147483647

/-- The integer type that holds every value. -/
def tagType (m : EnumMembers) : String :=
  if m.fields.all fun f ↦ fitsInt32 f.value then "i32" else "i64"

def fieldLine (f : EnumField) : Result String :=
  (Number.decimalText f.value).map fun value ↦ "    " ++ f.name ++ " = " ++ value ++ ","

def source (m : EnumMembers) (name : String) : Result (List String) := do
  let fields ← m.fields.mapM fieldLine
  return ["pub const " ++ name ++ " = enum(" ++ m.tagType ++ ") \x7b"]
    ++ fields
    ++ ["    _,"]
    ++ (if m.constants.isEmpty then []
        else "" :: m.constants.map fun k ↦
          "    pub const " ++ k.1 ++ " = " ++ name ++ "." ++ k.2 ++ ";")
    ++ ["\x7d;"]

end EnumMembers

namespace Context

def enumMembers (c : Context) (decl : EnumDecl) : Result EnumMembers :=
  EnumMembers.ofDecl c.renderer decl

/-- A value of an enum, as an expression. The name is rendered as it is if the registry has no
such enum. -/
def enumLiteral (c : Context) (enumName valueName : String) : Result String :=
  match c.document.enums.get? enumName with
  | none => .ok ("." ++ c.renderer.enumValueName enumName valueName false)
  | some decl => do
    let m ← c.enumMembers decl
    match m.tags.get? valueName with
    | some tag => return "." ++ tag
    | none => reject (.notAValue valueName enumName)

end Context

end XrBindings
