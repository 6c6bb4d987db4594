import XrBindings.Chain
import XrBindings.Registry.Document

/-!
# Success and failure

An enum that commands return is split into values that report success and values that report
failure. What the commands list decides first: a value that any command lists as an error is one,
and otherwise a value that any command lists as a success is one. Of the remaining values the
negative ones are errors. An alias goes with the value that it stands for.

The pending loss of a session is listed as a success, but callers have to react to it as to the
loss itself, so it always counts as an error.
-/

namespace XrBindings

/-- Values that count as errors whatever the commands list. -/
def pendingOverrides : List String := ["XR_SESSION_LOSS_PENDING"]

/-- The split of an enum; its values in the order of the enum, other spellings last. -/
structure ResultPartition where
  enumName : String
  success : List (Option String)
  error : List (Option String)
  deriving DecidableEq, Repr

namespace ResultPartition

def isError (p : ResultPartition) (value : Option String) : Bool := p.error.contains value

/-- The links of the aliases in an enum. -/
def valueLinks (decl : EnumDecl) : List (Option String × Option String) :=
  decl.values.filterMap fun v ↦ v.aliasTarget?.map fun target ↦ (v.name, some target)

/-- The codes that commands list. -/
structure Listed where
  success : List String
  error : List String

def listed (commands : List CommandDecl) : Listed where
  success := commands.flatMap (·.successCodes)
  error := commands.flatMap (·.errorCodes)

/-- Whether a value that is no alias is an error. -/
def valueIsError (codes : Listed) (v : EnumValue) : Result Bool :=
  if (v.name.map fun n ↦ pendingOverrides.contains n || codes.error.contains n) == some true then
    .ok true
  else if (v.name.map codes.success.contains) == some true then .ok false
  else v.integer?.map fun n ↦ n.any (· < 0)

/-- The end of the walk from an alias along the names that it follows. The walk stops at a name
that is placed already, and where there is no name to follow. It does not remember where it was, so
in a circle of names that are not placed it goes on for ever, and there is no split at all. -/
def walkEnd (decl : EnumDecl) (placed : List (Option String)) (v : EnumValue) :
    Result (Option String) :=
  let steps := (valueLinks decl).filter fun l ↦ !placed.contains l.1
  match Chain.follow steps v.aliasTarget? with
  | .arrives last => .ok last
  | .returns _ _ => .error .endlessWalk

/-- Place an alias on the side of the errors if its walk ends at one of `errors`. -/
def placeAlias (decl : EnumDecl) (errors : List (Option String)) (p : ResultPartition)
    (v : EnumValue) : Result ResultPartition := do
  let last ← walkEnd decl (errors ++ p.success) v
  return if errors.contains last then { p with error := p.error ++ [v.name] }
    else { p with success := p.success ++ [v.name] }

/-- The values that are no aliases, each with whether it is an error. -/
def judgements (codes : Listed) (decl : EnumDecl) : Result (List (Option String × Bool)) :=
  (decl.values.filter fun v ↦ !v.isAlias).mapM fun v ↦ do
    let isError ← valueIsError codes v
    return (v.name, isError)

/-- The split of the values that are no aliases. -/
def start (decl : EnumDecl) (judged : List (Option String × Bool)) : ResultPartition where
  enumName := decl.name
  success := (judged.filter fun j ↦ !j.2).map (·.1)
  error := (judged.filter (·.2)).map (·.1)

/-- The split of an enum. Aliases are placed after all other values, one after another. -/
def ofEnum (codes : Listed) (decl : EnumDecl) : Result ResultPartition := do
  let judged ← judgements codes decl
  let p := start decl judged
  (decl.values.filter (·.isAlias)).foldlM (placeAlias decl p.error) p

end ResultPartition

/-- The enums that commands return as they are, and that are no flags, in the order of the
commands. -/
def Document.resultEnums (d : Document) : List EnumDecl :=
  ((d.commands.values.filter (·.returns.pointers.isEmpty)).map (·.returns.typeName)).eraseDups
    |>.filterMap fun name ↦ (d.enums.get? name).filter fun e ↦ !e.isBitmask

/-- The split of every enum that commands return. -/
def Document.partitions (d : Document) : Result (Table String ResultPartition) := do
  let codes := ResultPartition.listed d.commands.values
  let pairs ← d.resultEnums.mapM fun decl ↦ do
    let p ← ResultPartition.ofEnum codes decl
    return (decl.name, p)
  return Table.ofList pairs

end XrBindings
