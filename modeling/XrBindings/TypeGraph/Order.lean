import XrBindings.TypeGraph.Alias
import XrBindings.TypeGraph.Placement

/-!
# The order of declarations

A struct or union holds the types of its fields by value, unless a field is a pointer, so these
types have to be declared before it. The order of the bindings is the order of the document as
far as that allows: at each step the first declaration of the document is placed whose
dependencies are all placed. What cannot be placed any more leads into a cycle.
-/

namespace XrBindings

/-- The declarations that a declaration holds by value, each once. -/
def valueDependencies (types : Table TypeName TypeDecl) (decl : TypeDecl) :
    Result (List TypeName) := do
  let held := decl.layoutFields.filter fun f ↦
    f.pointers.isEmpty && types.contains (some f.typeName)
  let targets ← held.mapM fun f ↦ aliasTarget types (some f.typeName)
  return targets.eraseDups

def placementTasks (types : Table TypeName TypeDecl) : Result (List (Placement.Task TypeName)) :=
  (types.entries.filter fun e ↦ !e.2.isAlias).mapM fun e ↦ do
    let needs ← valueDependencies types e.2
    return { name := e.1, needs }

/-- Declarations in the order in which their tasks are placed; all of them have to be. -/
def placeAll (types : Table TypeName TypeDecl) (tasks : List (Placement.Task TypeName)) :
    Result (List TypeDecl) :=
  let placed := Placement.order (types.keys.idxOf ·) tasks
  if placed.length == tasks.length then .ok (placed.filterMap types.get?)
  else
    let left := (tasks.map (·.name)).filter fun name ↦ !placed.contains name
    reject (.dependencyCycle (left.map nameText))

/-- The declarations that are no aliases, each after what it holds by value. -/
def typeOrder (types : Table TypeName TypeDecl) : Result (List TypeDecl) := do
  let tasks ← placementTasks types
  placeAll types tasks

/-- A registry's types as the bindings declare them. -/
structure TypeGraph where
  /-- Every declaration that is no alias, in the order of the bindings. -/
  order : List TypeDecl
  /-- The spelling that the bindings declare for each name. -/
  canonical : Table TypeName TypeName
  /-- The other spellings, each with the declared one, in document order. -/
  aliases : List (TypeName × TypeName)

/-- The types of a registry as the bindings declare them. -/
def Document.typeGraph (d : Document) : Result TypeGraph := do
  let canonical ← d.canonicalSpellings
  let order ← typeOrder d.types
  let aliases := d.types.keys.filterMap fun name ↦
    let spelling := (canonical.get? name).getD name
    if name == spelling then none else some (name, spelling)
  return { order, canonical, aliases }

end XrBindings
