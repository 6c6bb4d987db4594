import XrBindings.Command.Signature
import XrBindings.Naming.Renderer
import XrBindings.TypeGraph.Order

/-!
# What the bindings are made from

The registry together with what is derived from it once: the order and the spellings of its types,
the names of its declarations in Zig, the split of its result codes, and the sets of flags that
enums of bits belong to.
-/

namespace XrBindings

open XrBindings.Naming

/-- Everything that the bindings are made from. -/
structure Context where
  document : Document
  graph : TypeGraph
  renderer : Renderer
  partitions : Table String ResultPartition
  /-- The first set of flags that has its bits named by an enum. -/
  flagOwners : Table String String

namespace Context

/-- The sets of flags that enums of bits belong to. -/
def flagOwnersOf (types : Table TypeName TypeDecl) : Table String String :=
  types.values.foldl (fun owners decl ↦ match decl with
    | .bitmask name _ (some bits) => if bits.isEmpty then owners else owners.insertNew bits name
    | _ => owners) Table.empty

/-- Derive what the bindings of a registry need. -/
def ofDocument (document : Document) : Result Context := do
  let graph ← document.typeGraph
  let partitions ← document.partitions
  return {
    document, graph, partitions
    renderer := ⟨document.tags⟩
    flagOwners := flagOwnersOf document.types }

/-- A name that has to be there. -/
def required (name : Option String) : Result String :=
  match name with
  | some name => .ok name
  | none => .error .missingName

/-- The name under which the bindings declare a type. -/
def declaredName (c : Context) (name : TypeName) : Result String := do
  let spelling ← required ((c.graph.canonical.get? name).getD name)
  c.renderer.typeName spelling

/-- The declaration that a type finally stands for, if it is declared. -/
def terminal? (c : Context) (name : String) : Result (Option TypeDecl) :=
  if c.document.hasType name then do
    let target ← aliasTarget c.document.types (some name)
    return c.document.types.get? target
  else .ok none

end Context

end XrBindings
