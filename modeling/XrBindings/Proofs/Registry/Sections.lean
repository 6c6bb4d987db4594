import Mathlib.Logic.Relation
import XrBindings.Proofs.Result
import XrBindings.Registry.Load

/-!
# Sections of a registry

Loading walks over a document several times, once for each kind of section, and the walks follow
each other in an order of their own. So the order in which a document gives sections of different
kinds cannot be seen in what is loaded, and neither can children of any other kind, nor extensions
that are not to be bound.

What is seen of a document is therefore its list of sections of each kind. Changes that keep these
lists are described one at a time, and any number of them may follow each other, forwards and
backwards.
-/

namespace XrBindings

open XrBindings.Text XrBindings.Xml XrBindings.Load

variable {root root' x : Element}

/-! ## What is seen of a document -/

/-- The kinds of sections that loading walks over. -/
def sectionTags : List String := ["tags", "types", "enums", "commands", "feature", "extensions"]

/-- The documents have the same sections of each kind, as far as these are read: of the extensions
only those that are to be bound. -/
structure SameSections (root root' : Element) : Prop where
  tag : root'.tag = root.tag
  sections : ∀ kind ∈ sectionTags, kind ≠ "extensions" →
    root'.childrenNamed kind = root.childrenNamed kind
  extensions : (root'.grandchildrenNamed "extensions" "extension").filter isSupported =
    (root.grandchildrenNamed "extensions" "extension").filter isSupported

/-- An extension that is not to be bound adds nothing, and nothing in it is looked at. -/
theorem extensions_eq_foldlM_filter (root : Element) (enums : Table String EnumDecl) :
    Load.extensions root enums =
      ((root.grandchildrenNamed "extensions" "extension").filter isSupported).foldlM
        addExtension ([], enums) := by
  rw [Load.extensions, ← List.filterMap_eq_filter]
  refine (Result.foldlM_filterMap_eq (fun x _ y hy b ↦ ?_) (fun x _ hnone b ↦ ?_) _).symm
  · obtain ⟨rfl, -⟩ := Option.guard_eq_some_iff.mp hy
    rfl
  · have hunsupported : isSupported x = false := by simpa [Option.guard] using hnone
    rw [addExtension, if_pos (by rw [hunsupported]; rfl)]

namespace SameSections

variable (h : SameSections root root')
include h

theorem grandchildrenNamed {outer : String} (hread : outer ∈ sectionTags)
    (hne : outer ≠ "extensions") (inner : String) :
    root'.grandchildrenNamed outer inner = root.grandchildrenNamed outer inner := by
  rw [Element.grandchildrenNamed, h.sections outer hread hne, Element.grandchildrenNamed]

theorem types_eq : Load.types root' = Load.types root := by
  rw [Load.types, h.grandchildrenNamed (by simp [sectionTags]) (by simp), Load.types]

theorem enumTables_eq : Load.enumTables root' = Load.enumTables root := by
  rw [Load.enumTables, h.sections "enums" (by simp [sectionTags]) (by simp), Load.enumTables]

theorem commandTables_eq : Load.commandTables root' = Load.commandTables root := by
  rw [Load.commandTables, h.grandchildrenNamed (by simp [sectionTags]) (by simp),
    Load.commandTables]

theorem features_eq (enums : Table String EnumDecl) :
    Load.features root' enums = Load.features root enums := by
  rw [Load.features, h.sections "feature" (by simp [sectionTags]) (by simp), Load.features]

theorem extensions_eq (enums : Table String EnumDecl) :
    Load.extensions root' enums = Load.extensions root enums := by
  rw [extensions_eq_foldlM_filter, h.extensions, ← extensions_eq_foldlM_filter]

theorem version_eq : Load.version root' = Load.version root := by
  rw [Load.version, h.sections "feature" (by simp [sectionTags]) (by simp),
    h.grandchildrenNamed (by simp [sectionTags]) (by simp), Load.version]

/-- Documents with the same sections load to the same registry, or fail in the same way. -/
theorem ofElement_eq : Document.ofElement root' = Document.ofElement root := by
  rw [Document.ofElement, Document.ofElement, h.tag,
    h.grandchildrenNamed (by simp [sectionTags]) (by simp), h.types_eq, h.enumTables_eq,
    h.commandTables_eq, h.version_eq]
  simp only [h.features_eq, h.extensions_eq]

end SameSections

/-! ## Changes that are not seen -/

/-- One change to the children of a document. -/
inductive Rearranged : Element → Element → Prop where
  /-- Children change places, and those of one name keep their order among each other. -/
  | reorder {root : Element} {children : List Element}
      (horder : ∀ tag, children.filter (·.tag == tag) = root.childrenNamed tag) :
      Rearranged root { root with children }
  /-- A child that is no section comes in. -/
  | insert {root x : Element} {before after : List Element}
      (hchildren : root.children = before ++ after) (hx : x.tag ∉ sectionTags) :
      Rearranged root { root with children := before ++ x :: after }
  /-- An extension goes that is disabled or is meant for other APIs only. -/
  | drop {root block x : Element} {before after first last : List Element} {apis : String}
      (hchildren : root.children = before ++ block :: after) (hblock : block.tag = "extensions")
      (hextensions : block.children = first ++ x :: last) (hx : x.tag = "extension")
      (hapis : x.get? "supported" = some apis)
      (hunsupported : apis = "disabled" ∨ apiName ∉ commaList apis) :
      Rearranged root
        { root with children := before ++ { block with children := first ++ last } :: after }

theorem isSupported_eq_false {apis : String} (hapis : x.get? "supported" = some apis)
    (h : apis = "disabled" ∨ apiName ∉ commaList apis) : isSupported x = false := by
  rw [isSupported, hapis]
  obtain rfl | h := h
  · rfl
  · simp [supportsApi, h]

theorem filter_append_cons_of_notMem {before after : List Element} {kind : String}
    (hkind : kind ∈ sectionTags) (hx : x.tag ∉ sectionTags) :
    (before ++ x :: after).filter (·.tag == kind) = (before ++ after).filter (·.tag == kind) := by
  have hne : (x.tag == kind) = false := by
    rw [beq_eq_false_iff_ne]
    rintro rfl
    exact hx hkind
  rw [List.filter_append, List.filter_cons, if_neg (by simp [hne]), ← List.filter_append]

theorem sameSections_of_childrenNamed (htag : root'.tag = root.tag)
    (h : ∀ kind ∈ sectionTags, root'.childrenNamed kind = root.childrenNamed kind) :
    SameSections root root' where
  tag := htag
  sections kind hkind _ := h kind hkind
  extensions := by
    rw [Element.grandchildrenNamed, h "extensions" (by simp [sectionTags]),
      Element.grandchildrenNamed]

theorem Rearranged.sameSections (h : Rearranged root root') : SameSections root root' := by
  cases h with
  | reorder horder => exact sameSections_of_childrenNamed rfl fun kind _ ↦ horder kind
  | insert hchildren hx =>
    refine sameSections_of_childrenNamed rfl fun kind hkind ↦ ?_
    rw [Element.childrenNamed, Element.childrenNamed, hchildren,
      filter_append_cons_of_notMem hkind hx]
  | drop hchildren hblock hextensions hx hapis hunsupported =>
    refine ⟨rfl, fun kind hkind hne ↦ ?_, ?_⟩
    · simp [Element.childrenNamed, hchildren, hblock, Ne.symm hne]
    · simp [Element.grandchildrenNamed, Element.childrenNamed, hchildren, hblock, hextensions,
        hx, isSupported_eq_false hapis hunsupported]

/-- **The order of sections is not seen.** A document loads to the same registry, or fails in the
same way, after its children have changed places, with those of one name in their order, after
children that are no sections have come or gone, and without any extensions that are disabled or
meant for other APIs only. -/
theorem ofElement_eq_of_rearranged (h : Relation.EqvGen Rearranged root root') :
    Document.ofElement root' = Document.ofElement root := by
  induction h with
  | rel root root' hchange => exact hchange.sameSections.ofElement_eq
  | refl root => rfl
  | symm root root' _ ih => exact ih.symm
  | trans root middle root' _ _ ih ih' => exact ih'.trans ih

/-- An extension that is disabled, and could not be read. -/
def oldExtension : Element :=
  ⟨"extension", [("name", "XR_EXT_old"), ("supported", "disabled")], "", [], ""⟩

/-- An extension that adds a value to an enum. -/
def modeExtension : Element :=
  ⟨"extension", [("name", "XR_EXT_mode"), ("number", "2"), ("supported", "openxr")], "", [
    ⟨"require", [], "", [
      ⟨"enum", [("extends", "XrMode"), ("name", "XR_MODE_SHOW_EXT"), ("offset", "0")], "", [], ""⟩],
      ""⟩], ""⟩

def extensionsSection (extensions : List Element) : Element :=
  ⟨"extensions", [], "", extensions, ""⟩

def enumsSection : Element := ⟨"enums", [("name", "XrMode")], "", [], ""⟩

def remark : Element := ⟨"comment", [], "Not a section.", [], ""⟩

/-- A document with these children. -/
def registryOf (children : List Element) : Element := ⟨"registry", [], "", children, ""⟩

/-- The extensions come first, and both documents load to the same registry. -/
theorem ofElement_eq_of_rearranged_mode :
    Relation.EqvGen Rearranged
        (registryOf [extensionsSection [oldExtension, modeExtension], remark, enumsSection])
        (registryOf [enumsSection, extensionsSection [modeExtension]]) ∧
      Document.ofElement (registryOf [enumsSection, extensionsSection [modeExtension]]) =
        Document.ofElement
          (registryOf [extensionsSection [oldExtension, modeExtension], remark, enumsSection]) ∧
      ∃ d, Document.ofElement (registryOf [enumsSection, extensionsSection [modeExtension]]) =
        .ok d := by
  have hdrop : Rearranged
      (registryOf [extensionsSection [oldExtension, modeExtension], remark, enumsSection])
      (registryOf [extensionsSection [modeExtension], remark, enumsSection]) :=
    @Rearranged.drop _ (extensionsSection [oldExtension, modeExtension]) oldExtension []
      [remark, enumsSection] [] [modeExtension] "disabled" rfl rfl rfl rfl rfl (Or.inl rfl)
  have hinsert : Rearranged
      (registryOf [extensionsSection [modeExtension], enumsSection])
      (registryOf [extensionsSection [modeExtension], remark, enumsSection]) :=
    @Rearranged.insert _ remark [extensionsSection [modeExtension]] [enumsSection] rfl
      (by decide)
  have hreorder : Rearranged
      (registryOf [extensionsSection [modeExtension], enumsSection])
      (registryOf [enumsSection, extensionsSection [modeExtension]]) := by
    refine @Rearranged.reorder _ [enumsSection, extensionsSection [modeExtension]] fun tag ↦ ?_
    by_cases henums : "enums" = tag
    · subst henums
      rfl
    · simp [Element.childrenNamed, registryOf, enumsSection, List.filter_cons, henums]
  have hchain := Relation.EqvGen.trans _ _ _ (.rel _ _ hdrop)
    (.trans _ _ _ (.symm _ _ (.rel _ _ hinsert)) (.rel _ _ hreorder))
  exact ⟨hchain, ofElement_eq_of_rearranged hchain,
    Result.exists_eq_ok_of_isOk (by decide +kernel)⟩

end XrBindings
