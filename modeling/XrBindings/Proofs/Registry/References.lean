import XrBindings.Proofs.Registry.Accepted

/-!
# References of accepted documents

What the bindings look up is there. References are checked once, when the document has been read,
and the check covers every name of a type that the bindings are made from: those of fields, of what
functions and commands take and return, of base types and of sizes. An enum type needs no check. If
it has no block it is given one without values, and no later step takes a block away.
-/

namespace XrBindings

open XrBindings.Xml XrBindings.Load

/-! ## Types that are used -/

/-- The bindings look the name up as a type. -/
inductive Document.Uses (d : Document) : String → Prop where
  | member {decl : TypeDecl} {f : Field} (hdecl : decl ∈ d.types.values)
      (hf : f ∈ decl.layoutFields) : d.Uses f.typeName
  | functionPointer {name : String} {returns f : Field} {params : List Field}
      (hdecl : .functionPointer name returns params ∈ d.types.values)
      (hf : f ∈ returns :: params) : d.Uses f.typeName
  | command {c : CommandDecl} {f : Field} (hc : c ∈ d.commands.values)
      (hf : f ∈ c.returns :: c.params) : d.Uses f.typeName
  | underlying {name n : String} (hdecl : .base name (some n) ∈ d.types.values) : d.Uses n
  | size {name n : String} (hsize : (name, .sizeOf n) ∈ d.apiConstants.entries) : d.Uses n

/-- The name is a type or an enum of the document, or a scalar type of C. -/
def Document.Knows (d : Document) (n : String) : Prop :=
  d.hasType n = true ∨ d.enums.contains n = true ∨ Zig.isCType n = true

theorem Declarations.isKnown_of_checkField {declarations : Declarations} {owner : String}
    {f : Field} (h : declarations.checkField owner f = .ok ()) :
    declarations.isKnown f.typeName = true := by
  obtain ⟨_, hrequire, -⟩ := Result.bind_eq_ok_iff.mp h
  exact Declarations.require_eq_ok_iff.mp hrequire

theorem exists_checkField_of_layoutFields {declarations : Declarations}
    (h : declarations.checkReferences = .ok ()) {decl : TypeDecl} {f : Field}
    (hdecl : decl ∈ declarations.types.values) (hf : f ∈ decl.layoutFields) :
    ∃ owner, declarations.checkField owner f = .ok () := by
  have hcheck := checkType_of_checkReferences h hdecl
  cases decl with
  | struct name fields extended returnedOnly =>
    obtain ⟨_, hfields, -⟩ := Result.bind_eq_ok_iff.mp hcheck
    exact ⟨name, Result.forM_eq_ok_iff.mp hfields f hf⟩
  | union name fields => exact ⟨name, Result.forM_eq_ok_iff.mp hcheck f hf⟩
  | _ => exact absurd hf List.not_mem_nil

/-- **An accepted document is closed.** Whatever is used as a type can be found. -/
theorem Document.Accepted.knows {d : Document} (hd : d.Accepted) {n : String} (h : d.Uses n) :
    d.Knows n := by
  obtain ⟨root, tables, commandTables, enums, hread⟩ := hd.readFrom
  have hchecked := hread.references_checked
  have htype := @checkType_of_checkReferences _ hchecked
  obtain ⟨_, -, hrest⟩ := Result.bind_eq_ok_iff.mp hchecked
  obtain ⟨_, hconstants, hrest⟩ := Result.bind_eq_ok_iff.mp hrest
  obtain ⟨_, hcommands, -⟩ := Result.bind_eq_ok_iff.mp hrest
  have hknown : Declarations.isKnown {
      types := d.types, enums := d.enums, commands := commandTables.commands
      commandAliases := commandTables.aliases, constants := tables.constants } n = true := by
    cases h with
    | member hdecl hf =>
      obtain ⟨owner, hfield⟩ := exists_checkField_of_layoutFields hchecked hdecl hf
      exact Declarations.isKnown_of_checkField hfield
    | functionPointer hdecl hf =>
      exact Declarations.isKnown_of_checkField (Result.forM_eq_ok_iff.mp (htype hdecl) _ hf)
    | command hc hf =>
      rw [hread.commands_eq] at hc
      obtain ⟨c', hc', hsame⟩ := mem_values_withOrigins hc
      rw [hsame] at hf
      exact Declarations.isKnown_of_checkField
        (Result.forM_eq_ok_iff.mp (Result.forM_eq_ok_iff.mp hcommands c' hc') _ hf)
    | underlying hdecl => exact Declarations.require_eq_ok_iff.mp (htype hdecl)
    | size hsize =>
      rw [hread.apiConstants_eq] at hsize
      exact Declarations.require_eq_ok_iff.mp (Result.forM_eq_ok_iff.mp hconstants _ hsize)
  simpa [Declarations.isKnown, Document.Knows, Document.hasType, or_assoc] using hknown

theorem Document.Accepted.isExtent {d : Document} (hd : d.Accepted) {decl : TypeDecl} {f : Field}
    {size : String} (hdecl : decl ∈ d.types.values) (hf : f ∈ decl.layoutFields)
    (hsize : f.arraySize = some size) :
    Text.isDigits size = true ∨ size ∈ d.apiConstants.keys := by
  obtain ⟨root, tables, commandTables, enums, hread⟩ := hd.readFrom
  obtain ⟨owner, hfield⟩ := exists_checkField_of_layoutFields hread.references_checked hdecl hf
  obtain ⟨_, -, hextent⟩ := Result.bind_eq_ok_iff.mp hfield
  rw [hsize] at hextent
  dsimp only at hextent
  split at hextent
  · next hholds =>
    rw [Declarations.isExtent, Bool.or_eq_true, Table.contains_iff] at hholds
    rwa [hread.apiConstants_eq]
  · exact absurd hextent Result.reject_ne_ok

/-! ## Enums of enum types -/

/-- Every enum type has an enum. -/
def EnumTypesDeclared (types : Table TypeName TypeDecl) (enums : Table String EnumDecl) : Prop :=
  ∀ name, .enum name ∈ types.values → name ∈ enums.keys

theorem enumTypesDeclared_addEmptyEnums (types : Table TypeName TypeDecl)
    (enums : Table String EnumDecl) :
    EnumTypesDeclared types (Load.addEmptyEnums types enums) := by
  intro name hname
  have h : name ∈ enums.keys ∨ .enum name ∈ types.values := Or.inr hname
  clear hname
  rw [Load.addEmptyEnums]
  -- A name is kept once it is there, and it comes in with its declaration.
  generalize types.values = decls at h ⊢
  induction decls generalizing enums with
  | nil => simpa using h
  | cons decl decls ih =>
    rw [List.foldl_cons]
    refine ih _ ?_
    cases decl with
    | enum name' =>
      simp only [Table.mem_keys_insertNew, List.mem_cons, TypeDecl.enum.injEq] at h ⊢
      tauto
    | _ => simpa using h

theorem keptByValues_mem_keys (name : String) :
    KeptByValues fun enums : Table String EnumDecl ↦ name ∈ enums.keys :=
  fun _ _ _ _ _ hname _ _ ↦ (Table.mem_keys_insert _).mpr (Or.inr hname)

theorem Document.Accepted.enumTypesDeclared {d : Document} (hd : d.Accepted) :
    EnumTypesDeclared d.types d.enums := by
  obtain ⟨root, tables, commandTables, enums, hread⟩ := hd.readFrom
  exact fun name hname ↦ (keptByValues_mem_keys name).extensions hread.extensions_read
    ((keptByValues_mem_keys name).features hread.features_read
      (enumTypesDeclared_addEmptyEnums d.types tables.enums name hname))

end XrBindings
