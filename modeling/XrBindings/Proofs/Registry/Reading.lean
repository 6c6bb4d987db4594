import Mathlib.Data.List.Basic
import XrBindings.Registry.Load

/-!
# What loading reads of a document

Loading walks down a document in roles: the registry reads its `types` child for type
declarations, a declaration reads its members, and so on. A role says which children are read and in
what role each of them is. Before some children are read their `api` attribute is asked, so that
those of other APIs are left out; before others it is not.

Pruning keeps of an element in a role what is read of it.
-/

namespace XrBindings.Load

open XrBindings.Text XrBindings.Xml

/-- The element lists other APIs only. -/
def isForeign (e : Element) : Bool := !supportsApi (e.get? "api")

/-! ## Roles -/

/-- What an element is read as. -/
inductive Role where
  /-- The root; whether a macro of the document holds its version. -/
  | registry (versioned : Bool)
  | tags
  | types
  /-- A macro, which may turn out to hold the version. -/
  | definition
  /-- A type declaration with a name, by its category. -/
  | named (category : String)
  /-- A function pointer with a prototype. -/
  | prototype
  /-- An enum block; whether it is the one of the API constants. -/
  | enumBlock (constants : Bool)
  | commands
  | command
  | feature
  | extensions
  | extension
  | requirement
  /-- A `require` block in which only the version of its extension is looked for. -/
  | versionBlock
  /-- A member, parameter or prototype that has all its parts. -/
  | field
  /-- Only attributes and the text beside the element are read. -/
  | leaf
  /-- Everything inside may be read. -/
  | whole
  deriving DecidableEq

/-- How a child is read. -/
structure Reading where
  role : Role
  /-- It is read only if its `api` attribute names the API. -/
  asks : Bool := false
  /-- What is read of it matters. -/
  taken : Bool := true

/-- The element is the macro that holds the version, if it can be read. -/
def isVersionMacro (e : Element) : Bool :=
  e.get? "category" == some "define" && (e.child? "name").map (·.text) == some versionMacro

/-- The version that a macro of the document gives. -/
def declaredVersion? (root : Element) : Option String :=
  (root.grandchildrenNamed "types" "type").findSome? macroVersion?

/-- The newest of the numbers of features. -/
def newestOf (numbers : List String) : Result String := do
  let numbered ← numbers.mapM fun n ↦ do
    let parts ← versionParts n
    return (n, parts)
  return match numbered with
    | [] => "unknown"
    | best :: rest => newest best rest

/-- The value that gives an extension its version. -/
def isVersionValue (v : Element) : Bool :=
  endsWith ((v.get? "name").getD "") "_SPEC_VERSION" && (v.nonempty? "value").isSome

/-- The text of the first value in a block that gives the version. -/
def versionText? (block : Element) : Option (Option String) :=
  ((block.childrenNamed "enum").find? isVersionValue).map (·.get? "value")

/-- A field that lacks a part is shown as a whole by the message about it. -/
def fieldRole (e : Element) : Role :=
  if (childText? e "type").isSome && (childText? e "name").isSome then .field else .whole

/-- What a type declaration of a category is read as. One without a name is shown as a whole by the
message about it, and a function pointer without a prototype is read from its text. -/
def typeRole (e : Element) (category : String) : Role :=
  let isPointer := category == "funcpointer"
  if (e.nonempty? "alias").isSome && ((declaredName? e).isSome || isPointer) then .named ""
  else if isPointer && (e.child? "proto").isSome then .prototype
  else if isPointer || (declaredName? e).isNone || category == "basetype" then .whole
  else .named category

/-- How a `type` element is read. Macros are looked at for the version, whatever API they are of. -/
def typeReading (e : Element) : Option Reading :=
  let category := (e.get? "category").getD ""
  if category == "include" then none
  else if category == "define" then
    if isVersionMacro e then some { role := .whole }
    else some { role := .definition, taken := false }
  else some { role := typeRole e category, asks := true }

/-- How an element in a role reads a child, if it does. -/
@[simp]
def Role.reads : Role → Element → Option Reading
  | .registry versioned, x =>
    if x.tag == "tags" then some { role := .tags }
    else if x.tag == "types" then some { role := .types }
    else if x.tag == "enums" then
      some { role := .enumBlock ((x.get? "name").getD "" == constantsBlock) }
    else if x.tag == "commands" then some { role := .commands }
    else if x.tag == "feature" then
      -- Without the macro, the numbers of all features are compared.
      if versioned || !isForeign x then some { role := .feature, asks := true }
      else some { role := .leaf, taken := (x.nonempty? "number").isSome }
    else if x.tag == "extensions" then some { role := .extensions }
    else none
  | .tags, x => if x.tag == "tag" then some { role := .leaf } else none
  | .types, x => if x.tag == "type" then typeReading x else none
  | .definition, x => if x.tag == "name" then some { role := .leaf } else none
  | .named category, x =>
    if x.tag == "name" then some { role := .leaf }
    else if x.tag == "type" && (category == "handle" || category == "bitmask") then
      some { role := .leaf }
    else if x.tag == "member" && (category == "struct" || category == "union") then
      some { role := fieldRole x, asks := true }
    else none
  | .prototype, x =>
    if x.tag == "proto" || x.tag == "param" then some { role := fieldRole x } else none
  | .enumBlock constants, x =>
    if x.tag == "enum" then some { role := .leaf, asks := !constants } else none
  | .commands, x =>
    if x.tag == "command" then
      some { role := if (x.nonempty? "alias").isSome then .leaf else .command, asks := true }
    else none
  | .command, x =>
    if x.tag == "proto" then some { role := fieldRole x }
    else if x.tag == "param" then some { role := fieldRole x, asks := true }
    else none
  | .feature, x => if x.tag == "require" then some { role := .requirement, asks := true } else none
  | .extensions, x =>
    if x.tag == "extension" && isSupported x then some { role := .extension } else none
  | .extension, x =>
    if x.tag == "require" then
      -- A block of another API brings in nothing, but it may hold the version.
      if isForeign x then
        some { role := .versionBlock, taken := (versionText? x).isSome }
      else some { role := .requirement, asks := true }
    else none
  | .requirement, x =>
    if x.tag == "type" || x.tag == "command" || x.tag == "enum" then some { role := .leaf }
    else none
  | .versionBlock, x =>
    if x.tag == "enum" then some { role := .leaf, taken := isVersionValue x } else none
  | .field, x =>
    if x.tag == "type" || x.tag == "name" || x.tag == "enum" then some { role := .leaf } else none
  | .leaf, _ => none
  | .whole, _ => some { role := .whole }

/-- The role in which a child is kept: what is read of it matters, and it is of the API if that is
asked. -/
def Role.keeps (r : Role) (x : Element) : Option Role :=
  ((r.reads x).filter fun reading ↦ reading.taken && !(reading.asks && isForeign x)).map (·.role)

/-! ## Pruning -/

/-- The parts of an element that are read in a role. -/
def prune (r : Role) (e : Element) : Element :=
  { e with children := e.children.attach.filterMap fun ⟨x, _⟩ ↦ (r.keeps x).map (prune · x) }
termination_by e
decreasing_by
  have := List.sizeOf_lt_of_mem ‹x ∈ e.children›
  cases e
  simp at this ⊢
  omega

/-- What is kept of a child. -/
def keep (r : Role) (x : Element) : Option Element := (r.keeps x).map (prune · x)

variable {r : Role} {e x y : Element}

theorem prune_eq (r : Role) (e : Element) :
    prune r e = { e with children := e.children.filterMap (keep r) } := by
  rw [prune]
  conv_rhs => rw [← List.attach_map_subtype_val e.children, List.filterMap_map]
  rfl

@[simp]
theorem tag_prune (r : Role) (e : Element) : (prune r e).tag = e.tag := by rw [prune_eq]

@[simp]
theorem text_prune (r : Role) (e : Element) : (prune r e).text = e.text := by rw [prune_eq]

@[simp]
theorem tail_prune (r : Role) (e : Element) : (prune r e).tail = e.tail := by rw [prune_eq]

@[simp]
theorem get?_prune (r : Role) (e : Element) (name : String) :
    (prune r e).get? name = e.get? name := by
  rw [prune_eq]
  rfl

@[simp]
theorem nonempty?_prune (r : Role) (e : Element) (name : String) :
    (prune r e).nonempty? name = e.nonempty? name := by
  rw [Element.nonempty?, get?_prune, Element.nonempty?]

theorem prune_whole : ∀ e, prune .whole e = e
  | ⟨tag, attributes, text, children, tail⟩ => by
    have hkeep : ∀ x ∈ children, keep .whole x = some x := fun x hx ↦
      congrArg some (prune_whole x)
    rw [prune_eq, List.filterMap_congr hkeep, List.filterMap_some]
termination_by e => e
decreasing_by
  have := List.sizeOf_lt_of_mem hx
  simp only [Element.mk.sizeOf_spec]
  omega

/-! ## Children of a pruned element -/

theorem tag_of_mem_childrenNamed {tag : String} (h : x ∈ e.childrenNamed tag) : x.tag = tag := by
  simpa using (List.mem_filter.mp h).2

theorem tag_of_mem_grandchildrenNamed {outer inner : String}
    (h : x ∈ e.grandchildrenNamed outer inner) : x.tag = inner := by
  obtain ⟨parent, -, hx⟩ := List.mem_flatMap.mp h
  exact tag_of_mem_childrenNamed hx

theorem childrenNamed_prune (r : Role) (e : Element) (tag : String) :
    (prune r e).childrenNamed tag = (e.childrenNamed tag).filterMap (keep r) := by
  rw [prune_eq, Element.childrenNamed, Element.childrenNamed, List.filter_filterMap,
    List.filterMap_filter]
  refine List.filterMap_congr fun x _ ↦ ?_
  rw [keep]
  cases r.keeps x with
  | none => simp
  | some r' => simp [Option.filter]

theorem keep_eq {reading : Reading} (h : r.reads x = some reading) :
    keep r x = if reading.taken && !(reading.asks && isForeign x) then some (prune reading.role x)
      else none := by
  rw [keep, Role.keeps, h, Option.filter]
  split <;> rfl

theorem keep_of_reads_eq_none (h : r.reads x = none) : keep r x = none := by
  rw [keep, Role.keeps, h]
  rfl

theorem keep_of_reads {role : Role} (h : r.reads x = some { role }) :
    keep r x = some (prune role x) := by
  simp [keep_eq h]

theorem keep_of_reads_asks {role : Role} (h : r.reads x = some { role, asks := true }) :
    keep r x = if supportsApi (x.get? "api") then some (prune role x) else none := by
  simp [keep_eq h, isForeign]

/-- Children that are read without being asked are all kept. -/
theorem childrenNamed_prune_of_reads {tag : String} {role : Element → Role}
    (h : ∀ x, x.tag = tag → r.reads x = some { role := role x }) (e : Element) :
    (prune r e).childrenNamed tag = (e.childrenNamed tag).map fun x ↦ prune (role x) x := by
  rw [childrenNamed_prune, ← List.filterMap_eq_map]
  exact List.filterMap_congr fun x hx ↦ keep_of_reads (h x (tag_of_mem_childrenNamed hx))

/-- Children that are asked are kept if they belong to the API. -/
theorem childrenNamed_prune_of_reads_asks {tag : String} {role : Element → Role}
    (h : ∀ x, x.tag = tag → r.reads x = some { role := role x, asks := true }) (e : Element) :
    (prune r e).childrenNamed tag =
      ((e.childrenNamed tag).filter fun x ↦ supportsApi (x.get? "api")).map
        fun x ↦ prune (role x) x := by
  rw [childrenNamed_prune, ← List.filterMap_eq_map, List.filterMap_filter]
  exact List.filterMap_congr fun x hx ↦ keep_of_reads_asks (h x (tag_of_mem_childrenNamed hx))

theorem grandchildrenNamed_prune {outer : String} (role : Role)
    (h : ∀ x, x.tag = outer → r.reads x = some { role }) (e : Element) (inner : String) :
    (prune r e).grandchildrenNamed outer inner =
      (e.grandchildrenNamed outer inner).filterMap (keep role) := by
  simp only [Element.grandchildrenNamed, childrenNamed_prune_of_reads h, List.flatMap_map,
    childrenNamed_prune, List.filterMap_flatMap]

theorem child?_prune {tag : String} {role : Element → Role}
    (h : ∀ x, x.tag = tag → r.reads x = some { role := role x }) (e : Element) :
    (prune r e).child? tag = (e.child? tag).map fun x ↦ prune (role x) x := by
  have hchild (e : Element) : e.child? tag = (e.childrenNamed tag).head? := List.head?_filter.symm
  rw [hchild, hchild, childrenNamed_prune_of_reads h, List.head?_map]

theorem childText?_prune {tag : String} {role : Element → Role}
    (h : ∀ x, x.tag = tag → r.reads x = some { role := role x }) (e : Element) :
    childText? (prune r e) tag = childText? e tag := by
  simp [childText?, child?_prune h, Function.comp_def]

end XrBindings.Load
