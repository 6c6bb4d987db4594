import XrBindings.Chain
import XrBindings.Registry.Document

/-!
# Spellings of types

A type alias links to another type. The names whose links end at the same declaration form a
group, and the bindings declare one spelling of each group: the name of the declaration, unless
that comes from an extension and the group has a core name. Then the first core name is used, so
that promoting a type to core renames it and keeps the old name as an alias.
-/

namespace XrBindings

/-- The links of the type aliases. -/
def aliasLinks (types : Table TypeName TypeDecl) : List (TypeName × TypeName) :=
  types.entries.filterMap fun e ↦ e.2.aliasTarget?.map fun target ↦ (e.1, some target)

/-- The declaration that a name finally stands for. -/
def aliasTarget (types : Table TypeName TypeDecl) (name : TypeName) : Result TypeName :=
  match Chain.follow (aliasLinks types) name with
  | .arrives last =>
    if types.contains last then .ok last
    else reject (.undeclaredAliasTarget name (nameText last))
  | .returns passed again =>
    match (passed ++ [again]).mapM id with
    | some chain => reject (.aliasCycle chain)
    | none => .error .namelessCycle

/-- A group of names: the declaration that they stand for, and the names in document order. -/
structure AliasGroup where
  terminal : TypeName
  names : List TypeName
  deriving DecidableEq, Repr

/-- The groups of all declared names, in the order in which they are met. -/
def aliasGroups (types : Table TypeName TypeDecl) : Result (List AliasGroup) := do
  let terminals ← types.keys.mapM fun name ↦ do
    let terminal ← aliasTarget types name
    return (name, terminal)
  return (terminals.map Prod.snd).eraseDups.map fun terminal ↦
    { terminal, names := (terminals.filter (·.2 == terminal)).map Prod.fst }

def Document.preferredSpelling (d : Document) (g : AliasGroup) : TypeName :=
  if d.isCore g.terminal then g.terminal
  else (g.names.find? d.isCore).getD g.terminal

/-- The spelling that the bindings declare for each name. -/
def Document.canonicalSpellings (d : Document) : Result (Table TypeName TypeName) := do
  let groups ← aliasGroups d.types
  return Table.ofList (groups.flatMap fun g ↦ g.names.map (·, d.preferredSpelling g))

end XrBindings
