import XrBindings.Proofs.Registry.Pruning
import XrBindings.Proofs.Xml.Deletion

/-!
# Elements of other APIs

An element that lists other APIs only cannot be seen in what is loaded: a document loads to the same
registry without it, or fails in the same way. This holds wherever loading asks for the `api`
attribute: types, members, values of enums, commands and their parameters, features and `require`
blocks are asked, and nothing inside them is read if they are left out.

Loading forgets to ask where a role reads a child unasked. Such are the constants of the API, the
items of a `require` block, extensions, prototypes, the parameters of function pointers, the parts
of a field, and the parts of a document that hold all these. Text that is read as a whole, or shown
in a message, is read with everything inside it. The version of a registry or of an extension is
also looked for in what is left out otherwise. A constant of another API shows that such a place can
be seen.
-/

namespace XrBindings.Load

open XrBindings.Xml

/-- What stands at a place of an element in a role is read without its `api` attribute being asked.
Nothing is read inside an element that was asked and left out. -/
def overlooks : Role → Element → List Nat → Bool
  | _, _, [] => true
  | r, e, i :: path =>
    match e.children[i]? with
    | none => false
    | some x =>
      match r.reads x with
      | none => false
      | some reading =>
        if path.isEmpty then reading.taken && !reading.asks
        else !(reading.asks && isForeign x) && overlooks reading.role x path

variable {r : Role} {e f x y : Element} {path : List Nat}

/-! ## Roles that the content of an element decides -/

theorem fieldRole_prune (x e : Element) : fieldRole (prune (fieldRole x) e) = fieldRole e := by
  by_cases hparts : (childText? x "type").isSome && (childText? x "name").isSome
  · rw [show fieldRole x = .field from if_pos hparts, fieldRole, fieldRole,
      childText?_prune fun _ ↦ reads_field_type, childText?_prune fun _ ↦ reads_field_name]
  · rw [show fieldRole x = .whole from if_neg hparts, prune_whole]

theorem typeRole_prune (h : e.nonempty? "alias" = x.nonempty? "alias") (category : String) :
    typeRole (prune (typeRole x category) e) category = typeRole e category := by
  generalize hrole : typeRole x category = role
  rw [typeRole] at hrole
  split_ifs at hrole with halias hproto hwhole <;> subst hrole
  · have hname : declaredName? (prune (.named "") e) = declaredName? e :=
      declaredName?_prune (fun _ ↦ reads_named_name) e
    by_cases hpointer : category = "funcpointer" <;> simp_all [typeRole]
  · have hreads (x : Element) (hx : x.tag = "proto") :
        Role.prototype.reads x = some { role := fieldRole x } := by
      simp [hx]
    simp_all [typeRole, child?_prune hreads]
  · rw [prune_whole]
  · simp_all [typeRole, declaredName?_prune fun _ ↦ reads_named_name]

theorem isVersionMacro_prune (e : Element) :
    isVersionMacro (prune .definition e) = isVersionMacro e := by
  have hname (x : Element) (hx : x.tag = "name") :
      Role.definition.reads x = some { role := .leaf } := by
    simp [hx]
  simp [isVersionMacro, child?_prune hname, Function.comp_def]

/-! ## Elements that differ only in what is not read -/

/-- The elements have the same tag and the same attributes, and what is read of their content in the
role in which the first of them is read is the same. -/
structure ReadAlike (r : Role) (x y : Element) : Prop where
  tag : y.tag = x.tag
  attributes : y.attributes = x.attributes
  content : ∀ reading, r.reads x = some reading → ¬(reading.asks && isForeign x) →
    prune reading.role y = prune reading.role x

namespace ReadAlike

variable (h : ReadAlike r x y)
include h

theorem get? (name : String) : y.get? name = x.get? name := by
  rw [Element.get?, h.attributes, Element.get?]

theorem nonempty? (name : String) : y.nonempty? name = x.nonempty? name := by
  rw [Element.nonempty?, h.get?, Element.nonempty?]

theorem isForeign : isForeign y = isForeign x := by
  rw [Load.isForeign, h.get?, Load.isForeign]

theorem keep_of_reads (hreads : r.reads y = r.reads x) : keep r y = keep r x := by
  cases hx : r.reads x with
  | none => rw [keep_of_reads_eq_none hx, keep_of_reads_eq_none (hreads.trans hx)]
  | some reading =>
    rw [keep_eq hx, keep_eq (hreads.trans hx), h.isForeign]
    by_cases hasked : reading.asks && Load.isForeign x
    · simp [hasked]
    · rw [h.content reading hx hasked]

variable {asks : Bool}

/-- The role may depend on the content, as long as it does not depend on what is pruned in it. -/
theorem keep_of_role (role : Element → Role) (hx : r.reads x = some { role := role x, asks })
    (hy : r.reads y = some { role := role y, asks })
    (hrole : prune (role x) y = prune (role x) x → role y = role x) : keep r y = keep r x := by
  rw [keep_eq hx, keep_eq hy, h.isForeign]
  by_cases hasked : asks && Load.isForeign x
  · simp [hasked]
  · have hprune : prune (role x) y = prune (role x) x := h.content _ hx hasked
    simp only [hrole hprune, hprune]

theorem keep_of_fieldRole (asks : Bool)
    (hreads : ∀ z, z.tag = x.tag → r.reads z = some { role := fieldRole z, asks }) :
    keep r y = keep r x :=
  h.keep_of_role fieldRole (hreads x rfl) (hreads y h.tag) fun hprune ↦ by
    rw [← fieldRole_prune x y, hprune, fieldRole_prune]

omit h in
theorem keep_type (h : ReadAlike .types x y) : keep .types y = keep .types x := by
  have hcategory : y.get? "category" = x.get? "category" := h.get? _
  by_cases htag : x.tag = "type"
  · by_cases hinclude : (x.get? "category").getD "" = "include"
    · refine h.keep_of_reads ?_
      simp [h.tag, htag, typeReading, hcategory, hinclude]
    by_cases hdefine : (x.get? "category").getD "" = "define"
    · cases hversion : isVersionMacro x with
      | true =>
        -- The macro of the version is read as a whole.
        have hprune : prune .whole y = prune .whole x :=
          h.content { role := .whole } (by simp [htag, typeReading, hdefine, hversion]) (by simp)
        rw [prune_whole, prune_whole] at hprune
        rw [hprune]
      | false =>
        -- Whether a macro holds the version is seen by its name, which is read in any macro.
        have hprune : prune .definition y = prune .definition x :=
          h.content { role := .definition, taken := false }
            (by simp [htag, typeReading, hdefine, hversion]) (by simp)
        have hsame : isVersionMacro y = isVersionMacro x := by
          rw [← isVersionMacro_prune y, hprune, isVersionMacro_prune]
        refine h.keep_of_reads ?_
        simp [h.tag, htag, typeReading, hcategory, hdefine, hsame]
    · have hreads (z : Element) (hz : z.tag = x.tag) (hz' : z.get? "category" = x.get? "category") :
          Role.types.reads z =
            some { role := typeRole z ((x.get? "category").getD ""), asks := true } := by
        simp [hz, htag, typeReading, hz', hinclude, hdefine]
      refine h.keep_of_role (typeRole · _) (hreads x rfl rfl) (hreads y h.tag hcategory)
        fun hprune ↦ ?_
      rw [← typeRole_prune (x := x) (h.nonempty? _), hprune, typeRole_prune rfl]
  · exact h.keep_of_reads (by simp [h.tag, htag])

omit h in
theorem keep_require (h : ReadAlike .extension x y) : keep .extension y = keep .extension x := by
  refine h.keep_of_reads ?_
  by_cases htag : x.tag = "require"
  · cases hforeign : Load.isForeign x with
    | false => simp [h.tag, htag, h.isForeign, hforeign]
    | true =>
      have hprune : prune .versionBlock y = prune .versionBlock x :=
        h.content { role := .versionBlock, taken := (versionText? x).isSome }
          (by simp [htag, hforeign]) (by simp)
      have hversion : versionText? y = versionText? x := by
        rw [← versionText?_versionBlock y, hprune, versionText?_versionBlock]
      simp [h.tag, htag, h.isForeign, hversion]
  · simp [h.tag, htag]

/-- What is kept of a child stays if what is read of it stays: what decides the role of an element
is itself read in that role. -/
theorem keep_eq_keep : keep r y = keep r x := by
  cases r with
  | types => exact h.keep_type
  | extension => exact h.keep_require
  | named category =>
    by_cases hmember : x.tag = "member" ∧ (category = "struct" ∨ category = "union")
    · exact h.keep_of_fieldRole true fun z hz ↦ by simp [hz, hmember]
    · exact h.keep_of_reads (by simp [h.tag, hmember])
  | prototype =>
    by_cases hfield : x.tag = "proto" ∨ x.tag = "param"
    · exact h.keep_of_fieldRole false fun z hz ↦ by simp [hz, hfield]
    · exact h.keep_of_reads (by simp [h.tag, hfield])
  | command =>
    by_cases hproto : x.tag = "proto"
    · exact h.keep_of_fieldRole false fun z hz ↦ by simp [hz, hproto]
    · by_cases hparam : x.tag = "param"
      · exact h.keep_of_fieldRole true fun z hz ↦ by simp [hz, hparam]
      · exact h.keep_of_reads (by simp [h.tag, hproto, hparam])
  | _ =>
    refine h.keep_of_reads ?_
    simp [h.tag, h.get?, h.nonempty?, h.isForeign, isSupported, isVersionValue]

end ReadAlike

/-! ## Deleting what is not read -/

theorem overlooks_cons {i : ℕ} {reading : Reading} (hx : e.children[i]? = some x)
    (hreads : r.reads x = some reading) : overlooks r e (i :: path) =
      if path.isEmpty then reading.taken && !reading.asks
      else !(reading.asks && isForeign x) && overlooks reading.role x path := by
  rw [overlooks, hx]
  simp only [hreads]

/-- Deleting an element of another API leaves what is read as it is, unless the place of the element
is one where its `api` attribute is not asked. -/
theorem prune_delete (hat : e.at? path = some f) (hforeign : isForeign f)
    (hasked : overlooks r e path = false) : prune r (e.delete path) = prune r e := by
  induction path generalizing r e with
  | nil => simp [overlooks] at hasked
  | cons i path ih =>
    obtain ⟨before, x, after, hchildren, hx, hat, hdelete⟩ := Element.exists_delete_eq hat
    have hkeep : (if path = [] then [] else [x.delete path]).filterMap (keep r) =
        [x].filterMap (keep r) := by
      cases path with
      | nil =>
        -- The child itself is deleted. Where it was asked, nothing was kept of it.
        obtain rfl : x = f := by simpa [Element.at?] using hat
        suffices keep r x = none by simp [this]
        cases hreads : r.reads x with
        | none => exact keep_of_reads_eq_none hreads
        | some reading =>
          rw [overlooks_cons hx hreads] at hasked
          rw [keep_eq hreads, hforeign]
          cases htaken : reading.taken <;> simp_all
      | cons j path =>
        -- The deletion is inside the child, which is looked into only where it was not left out.
        have halike : ReadAlike r x (x.delete (j :: path)) := by
          refine ⟨Element.tag_delete .., Element.attributes_delete .., ?_⟩
          intro reading hreads hread
          rw [overlooks_cons hx hreads] at hasked
          exact ih hat (by simpa [hread] using hasked)
        simp [List.filterMap_cons, halike.keep_eq_keep]
    rw [prune_eq, prune_eq, hdelete, hchildren]
    simp only [List.filterMap_append, hkeep]

theorem rootRole_delete {root : Element} (h : prune (rootRole root) (root.delete path) =
    prune (rootRole root) root) : rootRole (root.delete path) = rootRole root := by
  have hversion : declaredVersion? (root.delete path) = declaredVersion? root := by
    rw [← declaredVersion?_prune _ (root.delete path), ← declaredVersion?_prune _ root]
    exact congrArg _ h
  rw [rootRole, hversion, rootRole]

variable {root : Element}

/-- A document without an element of another API loads to the same registry, or fails in the same
way, unless the element stands at a place where its `api` attribute is not asked. -/
theorem ofElement_delete_of_isForeign (hat : root.at? path = some e) (hforeign : isForeign e)
    (hasked : overlooks (rootRole root) root path = false) :
    Document.ofElement (root.delete path) = Document.ofElement root := by
  have hprune := prune_delete hat hforeign hasked
  rw [← ofElement_prune, rootRole_delete hprune, hprune, ofElement_prune]

/-- A struct with a member of another API beside one of its own. -/
def foreignMember : Element :=
  ⟨"registry", [], "", [⟨"types", [], "", [
    ⟨"type", [("category", "struct"), ("name", "XrThing")], "", [
      ⟨"member", [], "", [⟨"type", [], "float", [], " "⟩, ⟨"name", [], "x", [], ""⟩], ""⟩,
      ⟨"member", [("api", "vulkan, opengl")], "", [
        ⟨"type", [], "XrUnknown", [], " "⟩, ⟨"name", [], "y", [], ""⟩], ""⟩], ""⟩], ""⟩], ""⟩

/-- The member is left out, with the type that only it mentions. -/
theorem ofElement_delete_foreignMember :
    ∃ e, foreignMember.at? [0, 0, 1] = some e ∧ isForeign e ∧
      overlooks (rootRole foreignMember) foreignMember [0, 0, 1] = false ∧
      Document.ofElement (foreignMember.delete [0, 0, 1]) = Document.ofElement foreignMember := by
  have hasked : overlooks (rootRole foreignMember) foreignMember [0, 0, 1] = false := by
    decide +kernel
  refine ⟨_, rfl, ?_⟩
  have hforeign : isForeign (foreignMember.children[0].children[0].children[1]) := by
    decide +kernel
  exact ⟨hforeign, hasked, ofElement_delete_of_isForeign rfl hforeign hasked⟩

/-- A constant of another API. -/
def foreignConstant : Element :=
  ⟨"registry", [], "", [⟨"enums", [("name", "API Constants")], "", [
    ⟨"enum", [("name", "XR_FOREIGN"), ("value", "1"), ("api", "vulkan")], "", [], ""⟩], ""⟩], ""⟩

/-- The constants forget to ask: the constant of another API is loaded, so that a document with it
and one without it differ. -/
theorem ofElement_delete_foreignConstant :
    (∃ e, foreignConstant.at? [0, 0] = some e ∧ isForeign e) ∧
      Document.ofElement (foreignConstant.delete [0, 0]) ≠ Document.ofElement foreignConstant := by
  refine ⟨⟨_, rfl, by decide +kernel⟩, fun h ↦ ?_⟩
  have hconstants := congrArg (Except.map (·.apiConstants.get? "XR_FOREIGN")) h
  have hwith : (Document.ofElement foreignConstant).map (·.apiConstants.get? "XR_FOREIGN") =
      .ok (some (.integer 1)) := by with_unfolding_all rfl
  have hwithout : (Document.ofElement (foreignConstant.delete [0, 0])).map
      (·.apiConstants.get? "XR_FOREIGN") = .ok none := by with_unfolding_all rfl
  simp [hwith, hwithout] at hconstants

end XrBindings.Load
