import XrBindings.Bindings.Source
import XrBindings.Proofs.Bindings.Context
import XrBindings.Proofs.Bindings.EnumMembers
import XrBindings.Proofs.Command.Signature

/-!
# What the bindings reject for

The registry was checked when it was read, so there is little left for which the bindings can reject
it. Every name of a type that they look up is found, because the check of references knows the same
names as the look-up; every alias has a target, because the spellings were derived from the targets;
and nothing that is declared in order is an alias. What is left are identifiers that are too long,
and values of enums that the registry names without declaring them.
-/

namespace XrBindings

open XrBindings.Naming XrBindings.Xml

/-! ## Identifiers -/

/-- An identifier is too long. -/
def TooLong (error : GenerationError) : Prop := error.code = .identifierTooLong

namespace Naming.Renderer

variable {r : Renderer} {name : String} {style : CaseStyle}

theorem rejectsOnly_convert : RejectsOnly TooLong (r.convert name style) := by
  rw [convert]
  dsimp only
  split
  · exact .reject rfl
  · exact .ok _ _

theorem rejectsOnly_render : RejectsOnly TooLong (r.render name style) := .map _ rejectsOnly_convert

theorem rejectsOnly_typeName : RejectsOnly TooLong (r.typeName name) := by
  rw [typeName]
  split
  · exact .map _ rejectsOnly_convert
  · split
    · exact .ok _ _
    · exact rejectsOnly_render

theorem rejectsOnly_commandName : RejectsOnly TooLong (r.commandName name) := rejectsOnly_render

theorem rejectsOnly_commandPointerName : RejectsOnly TooLong (r.commandPointerName name) :=
  .map _ rejectsOnly_convert

theorem rejectsOnly_fieldName : RejectsOnly TooLong (r.fieldName name) := rejectsOnly_render

theorem rejectsOnly_constantName : RejectsOnly TooLong (r.constantName name) := rejectsOnly_render

theorem rejectsOnly_extensionName : RejectsOnly TooLong (r.extensionName name) := rejectsOnly_render

theorem rejectsOnly_errorName : RejectsOnly TooLong (r.errorName name) := by
  rw [errorName]
  exact .map _ rejectsOnly_convert

end Naming.Renderer

open Naming.Renderer

theorem Context.rejectsOnly_required (P : GenerationError → Prop) (name : Option String) :
    RejectsOnly P (Context.required name) := by
  cases name with
  | none => exact .failure (by simp)
  | some name => exact .ok P name

theorem Context.rejectsOnly_declaredName {c : Context} {name : TypeName} :
    RejectsOnly TooLong (c.declaredName name) :=
  .bind (rejectsOnly_required _ _) fun _ _ ↦ rejectsOnly_typeName

/-! ## Values of enums -/

theorem rejectsOnly_decimalText (P : GenerationError → Prop) (n : ℤ) :
    RejectsOnly P (Number.decimalText n) := by
  rw [Number.decimalText]
  split
  · exact .ok _ _
  · exact .failure (by simp)

namespace EnumMembers

variable {r : Renderer} {enumName : String} {v : EnumValue}

theorem rejectsOnly_candidates {isBitmask : Bool} :
    RejectsOnly TooLong (candidates r enumName v isBitmask) :=
  .bind (Context.rejectsOnly_required _ _) fun _ _ ↦ .bind rejectsOnly_render fun _ _ ↦ .pure _ _

theorem rejectsOnly_integer (P : GenerationError → Prop) : RejectsOnly P (integer v) :=
  .bind (EnumValue.rejectsOnly_integer? P v) fun n _ ↦ by cases n <;> exact .pure _ _

theorem rejectsOnly_addValue {m : EnumMembers} : RejectsOnly TooLong (addValue r enumName m v) := by
  refine .bind rejectsOnly_candidates fun ⟨_, _, _⟩ _ ↦ .bind (rejectsOnly_integer _) fun _ _ ↦ ?_
  split <;> exact .pure _ _

theorem rejectsOnly_ofDecl {decl : EnumDecl} : RejectsOnly TooLong (ofDecl r decl) :=
  .bind (.foldlM fun _ _ _ ↦ rejectsOnly_addValue) fun _ _ ↦ .pure _ _

theorem rejectsOnly_source {m : EnumMembers} {name : String} (P : GenerationError → Prop) :
    RejectsOnly P (m.source name) :=
  .bind (.mapM fun _ _ ↦ .map _ (rejectsOnly_decimalText P _)) fun _ _ ↦ .pure _ _

end EnumMembers

theorem FlagLayout.rejectsOnly_addValue {r : Renderer} {enumName : String} {l : FlagLayout}
    {v : EnumValue} : RejectsOnly TooLong (FlagLayout.addValue r enumName l v) := by
  refine .bind EnumMembers.rejectsOnly_candidates fun ⟨_, _, _⟩ _ ↦
    .bind (EnumMembers.rejectsOnly_integer _) fun _ _ ↦ ?_
  split
  · exact .pure _ _
  · exact .pure _ _
  · split
    · exact .failure (by simp)
    · exact .pure _ _

theorem Context.rejectsOnly_flagLayout {c : Context} {name : String} {bitsEnum : Option String}
    {width : Int} : RejectsOnly TooLong (c.flagLayout name bitsEnum width) := by
  rw [flagLayout]
  split
  · exact .ok _ _
  · exact .bind (.foldlM fun _ _ _ ↦ FlagLayout.rejectsOnly_addValue) fun _ _ ↦ .pure _ _

/-! ## Types -/

namespace Context

variable {c : Context} {f : Field} {n : String}

theorem rejectsOnly_baseType (hn : c.document.Knows n) : RejectsOnly TooLong (c.baseType n) := by
  rw [baseType]
  split
  · exact .ok _ _
  · next hscalar =>
    split
    · exact .ok _ _
    · split
      · exact rejectsOnly_declaredName
      · -- The look-up comes to nothing only for a name that the check did not know either.
        next hundeclared =>
        rw [Bool.or_eq_true, not_or] at hundeclared
        obtain htype | henum | hcType := hn
        · exact absurd htype hundeclared.1
        · exact absurd henum hundeclared.2
        · exact absurd hcType (by simp [Zig.isCType, hscalar])

theorem rejectsOnly_arrayLength {size : String} : RejectsOnly TooLong (c.arrayLength size) := by
  rw [arrayLength]
  split
  · exact .ok _ _
  · exact rejectsOnly_constantName

theorem rejectsOnly_terminal? (hc : c.Closed) (P : GenerationError → Prop) :
    RejectsOnly P (c.terminal? n) := by
  rw [terminal?]
  split
  · next hdeclared =>
    obtain ⟨target, htarget⟩ :=
      hc.aliasTarget_ok (some n) ((Table.contains_iff _ _).mp hdeclared)
    rw [htarget]
    exact .pure _ _
  · exact .ok _ _

theorem rejectsOnly_fieldType (hc : c.Closed) (hf : c.document.Knows f.typeName) :
    RejectsOnly TooLong (c.fieldType f) := by
  refine .bind (rejectsOnly_baseType hf) fun base _ ↦ ?_
  split
  · exact .pure _ _
  · split
    · exact .bind rejectsOnly_arrayLength fun _ _ ↦ .pure _ _
    · split
      · refine .bind (.bind (rejectsOnly_terminal? hc _) fun target _ ↦ ?_) fun _ _ ↦ .pure _ _
        split <;> exact .pure _ _
      · exact .pure _ _

theorem rejectsOnly_pointeeType (hf : c.document.Knows f.typeName) :
    RejectsOnly TooLong (c.pointeeType f) :=
  .bind (rejectsOnly_baseType hf) fun _ _ ↦ .pure _ _

theorem rejectsOnly_typedName (hc : c.Closed) (hf : c.document.Knows f.typeName) :
    RejectsOnly TooLong (c.typedName f) :=
  .bind rejectsOnly_fieldName fun _ _ ↦ .bind (rejectsOnly_fieldType hc hf) fun _ _ ↦ .pure _ _

theorem rejectsOnly_functionType (hc : c.Closed) {returns : Field} {params : List Field}
    (hf : ∀ f ∈ returns :: params, c.document.Knows f.typeName) :
    RejectsOnly TooLong (c.functionType returns params) := by
  rw [List.forall_mem_cons] at hf
  exact .bind (.mapM fun f hmem ↦ rejectsOnly_typedName hc (hf.2 f hmem)) fun _ _ ↦
    .bind (rejectsOnly_fieldType hc hf.1) fun _ _ ↦ .pure _ _

end Context

/-- The bindings write a value of an enum by the name that the registry gives: that of a
discriminant, or that of success. -/
inductive Document.WritesValue (d : Document) : String → String → Prop where
  | discriminant {name value : String} {fields : List Field} {extended : List String}
      {returnedOnly : Bool} {f : Field}
      (hdecl : .struct name fields extended returnedOnly ∈ d.types.values) (hf : f ∈ fields)
      (hdiscriminant : f.isDiscriminant = true)
      (hvalue : (Declarator.listAttribute f.values).head? = some value) :
      d.WritesValue f.typeName value
  | success : d.WritesValue "XrResult" "XR_SUCCESS"

/-- What is left to reject an accepted document for, once its types are in order: an identifier that
is too long, or a value that is written and that its enum lacks. -/
def Document.EmissionCause (d : Document) (error : GenerationError) : Prop :=
  TooLong error ∨ ∃ block value decl, error = .notAValue value block ∧ d.WritesValue block value ∧
    d.enums.get? block = some decl ∧ decl.Lacks value

theorem TooLong.emissionCause {d : Document} {error : GenerationError} (h : TooLong error) :
    d.EmissionCause error := Or.inl h

namespace Context

variable {c : Context} {f : Field} {n : String}

theorem rejectsOnly_enumLiteral (hc : c.Closed) {block value : String}
    (hwritten : c.document.WritesValue block value) :
    RejectsOnly c.document.EmissionCause (c.enumLiteral block value) := by
  rw [enumLiteral]
  split
  · exact .ok _ _
  · next decl hdecl =>
    refine .bind (EnumMembers.rejectsOnly_ofDecl.mono fun _ ↦ TooLong.emissionCause) fun m hm ↦ ?_
    split
    · exact .pure _ _
    · next hnone =>
      exact .reject (Or.inr ⟨block, value, decl, rfl, hwritten, hdecl,
        EnumMembers.lacks_of_get?_tags (hc.enums_named block decl hdecl).2 hm hnone⟩)

/-! ## Structs and unions -/

section

variable {name : String} {fields : List Field} {extended : List String} {returnedOnly : Bool}

theorem rejectsOnly_discriminantLiteral (hc : c.Closed)
    (hdecl : .struct name fields extended returnedOnly ∈ c.document.types.values) (hf : f ∈ fields)
    (hdiscriminant : f.isDiscriminant = true) :
    RejectsOnly c.document.EmissionCause (c.discriminantLiteral f) := by
  rw [discriminantLiteral]
  split
  · exact .failure (by simp)
  · next value rest hvalues =>
    exact rejectsOnly_enumLiteral hc
      (.discriminant hdecl hf hdiscriminant (by rw [hvalues, List.head?_cons]))

theorem rejectsOnly_structDefaults (hc : c.Closed)
    (hdecl : .struct name fields extended returnedOnly ∈ c.document.types.values) :
    RejectsOnly c.document.EmissionCause (c.structDefaults fields) := by
  rw [structDefaults]
  split
  · next hfound _ =>
    exact .bind (rejectsOnly_discriminantLiteral hc hdecl (List.mem_of_find?_eq_some hfound)
      (List.find?_some hfound)) fun _ _ ↦ .pure _ _
  · exact .ok _ _
  · exact .ok _ _

theorem rejectsOnly_settingLines (hc : c.Closed)
    (hdecl : .struct name fields extended returnedOnly ∈ c.document.types.values)
    (hf : f ∈ fields) : RejectsOnly c.document.EmissionCause (c.settingLines f) := by
  have hname : RejectsOnly c.document.EmissionCause (c.renderer.fieldName f.name) :=
    rejectsOnly_fieldName.mono fun _ ↦ TooLong.emissionCause
  rw [settingLines]
  split
  · next hdiscriminant =>
    exact .bind (rejectsOnly_discriminantLiteral hc hdecl hf hdiscriminant) fun _ _ ↦
      .bind hname fun _ _ ↦ .pure _ _
  · split
    · exact .bind hname fun _ _ ↦ .pure _ _
    · exact .pure _ _

theorem rejectsOnly_fieldLine (hc : c.Closed) {defaults : Table String String}
    (hf : c.document.Knows f.typeName) : RejectsOnly TooLong (c.fieldLine defaults f) :=
  .bind (rejectsOnly_typedName hc hf) fun _ _ ↦ .pure _ _

theorem rejectsOnly_structSource (hc : c.Closed) {declared : String}
    (hdecl : .struct name fields extended returnedOnly ∈ c.document.types.values) :
    RejectsOnly c.document.EmissionCause (c.structSource declared fields) := by
  have hlines : ∀ defaults f, f ∈ fields →
      RejectsOnly c.document.EmissionCause (c.fieldLine defaults f) := fun defaults f hf ↦
    (rejectsOnly_fieldLine hc (hc.knows _ (.member hdecl hf))).mono fun _ ↦ TooLong.emissionCause
  refine .bind (rejectsOnly_structDefaults hc hdecl) fun defaults _ ↦
    .bind (.mapM (hlines defaults)) fun _ _ ↦ ?_
  dsimp only
  split
  · exact .bind (.bind (.mapM fun f hf ↦ rejectsOnly_settingLines hc hdecl hf) fun _ _ ↦
      .pure _ _) fun _ _ ↦ .pure _ _
  · exact .bind (.pure _ _) fun _ _ ↦ .pure _ _

theorem rejectsOnly_unionSource (hc : c.Closed) {declared : String}
    (hdecl : .union name fields ∈ c.document.types.values) :
    RejectsOnly TooLong (c.unionSource declared fields) :=
  .bind (.mapM fun _ hf ↦ rejectsOnly_fieldLine hc (hc.knows _ (.member hdecl hf))) fun _ _ ↦
    .pure _ _

end

/-! ## Declarations -/

theorem rejectsOnly_enumSource {name : String} : RejectsOnly TooLong (c.enumSource name n) := by
  rw [enumSource]
  split
  · exact .failure (by simp)
  · split
    · exact .bind EnumMembers.rejectsOnly_ofDecl fun _ _ ↦ EnumMembers.rejectsOnly_source _
    · split
      · exact .bind rejectsOnly_declaredName fun _ _ ↦ .pure _ _
      · exact .map _ rejectsOnly_flagLayout

theorem rejectsOnly_declarationSource (hc : c.Closed) {decl : TypeDecl}
    (hdecl : decl ∈ c.document.types.values) (halias : decl.isAlias = false) :
    RejectsOnly c.document.EmissionCause (c.declarationSource decl) := by
  have htooLong : ∀ {x : Result (List String)}, RejectsOnly TooLong x →
      RejectsOnly c.document.EmissionCause x := fun h ↦ h.mono fun _ ↦ TooLong.emissionCause
  refine .bind (rejectsOnly_declaredName.mono fun _ ↦ TooLong.emissionCause) fun declared _ ↦ ?_
  cases decl with
  -- Only an alias has no form of its own, and aliases are not in the order.
  | aliasOf name target category => exact absurd halias (by simp [TypeDecl.isAlias,
      TypeDecl.aliasTarget?])
  | base name underlying =>
    cases underlying with
    | none => exact .pure _ _
    | some underlying =>
      exact htooLong (.bind (rejectsOnly_baseType (hc.knows _ (.underlying hdecl))) fun _ _ ↦
        .pure _ _)
  | external name required => exact .pure _ _
  | handle name dispatch parent => exact .pure _ _
  | bitmask name width bitsEnum => exact htooLong (.map _ rejectsOnly_flagLayout)
  | enum name => exact htooLong rejectsOnly_enumSource
  | struct name fields extended returnedOnly => exact rejectsOnly_structSource hc hdecl
  | union name fields => exact htooLong (rejectsOnly_unionSource hc hdecl)
  | functionPointer name returns params =>
    exact htooLong (.bind (rejectsOnly_functionType hc fun f hf ↦
      hc.knows _ (.functionPointer hdecl hf)) fun _ _ ↦ .pure _ _)

theorem rejectsOnly_aliasSource : RejectsOnly TooLong c.aliasSource :=
  .bind (.mapM fun ⟨_, _⟩ _ ↦ .bind (rejectsOnly_required _ _) fun _ _ ↦
    .bind rejectsOnly_typeName fun _ _ ↦ .bind (rejectsOnly_required _ _) fun _ _ ↦
      .bind rejectsOnly_typeName fun _ _ ↦ .pure _ _) fun _ _ ↦ .pure _ _

theorem rejectsOnly_constantsSource (hc : c.Closed) : RejectsOnly TooLong c.constantsSource := by
  refine .mapM fun ⟨name, value⟩ hentry ↦ .bind ?_ fun _ _ ↦
    .bind rejectsOnly_constantName fun _ _ ↦ .pure _ _
  cases value with
  | sizeOf typeName => exact .map _ (rejectsOnly_baseType (hc.knows _ (.size hentry)))
  | real x => exact .ok _ _
  | integer n => exact rejectsOnly_decimalText _ _

theorem rejectsOnly_versionSource : RejectsOnly TooLong c.versionSource := by
  rw [versionSource]
  split
  · exact .ok _ _
  · exact .bind rejectsOnly_declaredName fun _ _ ↦ .pure _ _

/-! ## Checks of results -/

theorem rejectsOnly_resultCheckSource {p : ResultPartition} :
    RejectsOnly TooLong (c.resultCheckSource p) := by
  refine .bind rejectsOnly_declaredName fun _ _ ↦ ?_
  dsimp only
  split
  · refine .bind (.pure _ _) fun decl _ ↦ .bind EnumMembers.rejectsOnly_ofDecl fun members _ ↦
      .bind ?_ fun _ _ ↦ .bind (.map _ rejectsOnly_declaredName) fun _ _ ↦
        .bind (.map _ rejectsOnly_declaredName) fun _ _ ↦ .bind ?_ fun _ _ ↦ .pure _ _
    · exact .bind (.mapM fun _ _ ↦ .bind (rejectsOnly_required _ _) fun _ _ ↦
        rejectsOnly_errorName) fun _ _ ↦ .pure _ _
    · exact .mapM fun _ _ ↦ .bind rejectsOnly_errorName fun _ _ ↦ .pure _ _
  · -- A missing enum makes the bindings fail, but this failure is no rejection.
    exact .bind (.failure (by simp)) fun _ hnever ↦ absurd hnever (by simp)

/-! ## Wrappers -/

theorem rejectsOnly_outerPointer (P : GenerationError → Prop) : RejectsOnly P (outerPointer f) := by
  rw [outerPointer]
  split
  · exact .ok _ _
  · exact .failure (by simp)

theorem rejectsOnly_sliceType (hf : c.document.Knows f.typeName) :
    RejectsOnly TooLong (c.sliceType f) :=
  .bind (rejectsOnly_baseType hf) fun _ _ ↦ .bind (rejectsOnly_outerPointer _) fun _ _ ↦ .pure _ _

theorem rejectsOnly_sliceLength : RejectsOnly TooLong (c.sliceLength f) :=
  .bind rejectsOnly_fieldName fun _ _ ↦ .bind (rejectsOnly_outerPointer _) fun _ _ ↦ .pure _ _

theorem rejectsOnly_lengthArgument : RejectsOnly TooLong (c.lengthArgument f) :=
  .bind rejectsOnly_fieldName fun _ _ ↦ .bind (rejectsOnly_outerPointer _) fun _ _ ↦ .pure _ _

theorem rejectsOnly_lengthPart {arrays : List Field} :
    RejectsOnly TooLong (c.lengthPart arrays) := by
  cases arrays with
  | nil => exact .failure (by simp)
  | cons first others =>
    exact .bind rejectsOnly_lengthArgument fun _ _ ↦ .bind (.mapM fun _ _ ↦
      .bind rejectsOnly_sliceLength fun _ _ ↦ .bind rejectsOnly_sliceLength fun _ _ ↦ .pure _ _)
      fun _ _ ↦ .pure _ _

theorem rejectsOnly_outputStart (hc : c.Closed) {pointee : String} (P : GenerationError → Prop) :
    RejectsOnly P (c.outputStart f pointee) := by
  rw [outputStart]
  split
  · refine .bind (rejectsOnly_terminal? hc _) fun target _ ↦ ?_
    split <;> exact .pure _ _
  · exact .pure _ _

theorem rejectsOnly_wrapperPart (hc : c.Closed) {params : List LoweredParam} {p : LoweredParam}
    (hp : c.document.Knows p.param.typeName) : RejectsOnly TooLong (c.wrapperPart params p) := by
  refine .bind rejectsOnly_fieldName fun name _ ↦ ?_
  split
  · exact rejectsOnly_lengthPart
  · split
    · exact .bind (rejectsOnly_sliceType hp) fun _ _ ↦ .bind (rejectsOnly_outerPointer _) fun _ _ ↦
        .pure _ _
    · split
      · exact .bind (rejectsOnly_pointeeType hp) fun _ _ ↦
          .bind (rejectsOnly_outputStart hc _) fun _ _ ↦ .pure _ _
      · exact .bind (rejectsOnly_fieldType hc hp) fun _ _ ↦ .pure _ _

theorem rejectsOnly_callAndReturn (hc : c.Closed) {s : WrapperSignature} {call : String}
    {outputs : List WrapperOutput} (hs : c.document.Knows s.command.returns.typeName) :
    RejectsOnly TooLong (c.callAndReturn s call outputs) := by
  rw [callAndReturn]
  obtain ⟨okType, statements⟩ := returned outputs
  dsimp only
  split
  · exact .bind (.map _ rejectsOnly_declaredName) fun _ _ ↦
      .bind (.map _ rejectsOnly_declaredName) fun _ _ ↦ .pure _ _
  · refine .bind (rejectsOnly_fieldType hc hs) fun raw _ ↦ ?_
    split
    · exact .pure _ _
    · split <;> exact .pure _ _

theorem rejectsOnly_wrapperSource (hc : c.Closed) {s : WrapperSignature}
    (hs : ∀ f ∈ s.command.returns :: s.params.map (·.param), c.document.Knows f.typeName) :
    RejectsOnly TooLong (c.wrapperSource s) := by
  rw [List.forall_mem_cons, List.forall_mem_map] at hs
  refine .bind (.mapM fun p hp ↦ rejectsOnly_wrapperPart hc (hs.2 p hp)) fun parts _ ↦
    .bind (.mapM fun p hp ↦ ?_) fun outputs _ ↦
    .bind (rejectsOnly_callAndReturn hc hs.1) fun ⟨_, _⟩ _ ↦
    .bind rejectsOnly_commandName fun _ _ ↦ .pure _ _
  exact .bind rejectsOnly_fieldName fun _ _ ↦
    .bind (rejectsOnly_pointeeType (hs.2 p (List.mem_filter.mp hp).1)) fun _ _ ↦ .pure _ _

/-! ## The dispatch table -/

theorem rejectsOnly_commandPointers (hc : c.Closed) {taken : List String} :
    RejectsOnly TooLong (c.commandPointers taken) := by
  refine .foldlM fun command hcommand ⟨lines, taken⟩ ↦
    .bind rejectsOnly_commandPointerName fun name _ ↦ ?_
  split
  · exact .pure _ _
  · exact .bind (rejectsOnly_functionType hc fun f hf ↦ hc.knows _ (.command hcommand hf)) fun _ _ ↦
      .pure _ _

theorem rejectsOnly_loadFunction (hc : c.Closed) :
    RejectsOnly c.document.EmissionCause c.loadFunction := by
  rw [loadFunction]
  split
  · exact .ok _ _
  · exact .bind (rejectsOnly_declaredName.mono fun _ ↦ TooLong.emissionCause) fun _ _ ↦
      .bind (rejectsOnly_commandPointerName.mono fun _ ↦ TooLong.emissionCause) fun _ _ ↦
      .bind (rejectsOnly_declaredName.mono fun _ ↦ TooLong.emissionCause) fun _ _ ↦
      .bind (rejectsOnly_enumLiteral hc .success) fun _ _ ↦ .pure _ _

theorem rejectsOnly_wrapperAlias {spelling : String} :
    RejectsOnly TooLong (c.wrapperAlias spelling) := by
  rw [wrapperAlias]
  split
  · exact .ok _ _
  · exact .bind rejectsOnly_commandName fun _ _ ↦ .bind rejectsOnly_commandName fun _ _ ↦ .pure _ _

theorem knows_of_signatures (hc : c.Closed) {signatures : List WrapperSignature}
    (h : c.signatures = .ok signatures) {s : WrapperSignature} (hs : s ∈ signatures) :
    ∀ f ∈ s.command.returns :: s.params.map (·.param), c.document.Knows f.typeName := by
  obtain ⟨command, hcommand, hlower⟩ := (Result.mem_of_mapM h).mp hs
  obtain ⟨rfl, hparams⟩ := CommandDecl.of_lower_eq_ok hlower
  rw [hparams]
  exact fun f hf ↦ hc.knows _ (.command hcommand hf)

theorem rejectsOnly_dispatchSource (hc : c.Closed) {signatures : List WrapperSignature}
    (h : c.signatures = .ok signatures) :
    RejectsOnly c.document.EmissionCause (c.dispatchSource signatures) := by
  have hmembers : RejectsOnly TooLong (c.document.commands.values.mapM c.pointerMember) :=
    .mapM fun _ _ ↦ .bind rejectsOnly_commandPointerName fun _ _ ↦ .pure _ _
  have hwrappers : ∀ s ∈ signatures, RejectsOnly TooLong (c.wrapperSource s) :=
    fun s hs ↦ rejectsOnly_wrapperSource hc (knows_of_signatures hc h hs)
  have haliases : RejectsOnly TooLong (c.document.commandAliases.keys.mapM c.wrapperAlias) :=
    .mapM fun _ _ ↦ rejectsOnly_wrapperAlias
  exact .bind (hmembers.mono fun _ ↦ TooLong.emissionCause) fun _ _ ↦
    .bind (rejectsOnly_loadFunction hc) fun _ _ ↦
    .bind (.mapM fun s hs ↦ .bind ((hwrappers s hs).mono fun _ ↦ TooLong.emissionCause) fun _ _ ↦
      .pure _ _) fun _ _ ↦
    .bind (haliases.mono fun _ ↦ TooLong.emissionCause) fun _ _ ↦ .pure _ _

/-! ## The whole source -/

theorem rejectsOnly_typeSections (hc : c.Closed) :
    RejectsOnly c.document.EmissionCause c.typeSections := by
  refine .foldlM fun decl hdecl ⟨sections, taken⟩ ↦ ?_
  obtain ⟨hvalue, halias⟩ := hc.mem_order decl hdecl
  refine .bind (rejectsOnly_declarationSource hc hvalue halias) fun lines _ ↦ ?_
  split
  · exact .pure _ _
  · exact .bind (rejectsOnly_declaredName.mono fun _ ↦ TooLong.emissionCause) fun _ _ ↦ .pure _ _

theorem rejectsOnly_fileHeader (P : GenerationError → Prop) (version name : String) :
    RejectsOnly P (fileHeader version name) := by
  rw [fileHeader]
  split
  · exact .failure (by simp)
  · exact .ok _ _

theorem rejectsOnly_extensionSource : RejectsOnly TooLong c.extensionSource := by
  rw [extensionSource]
  split
  · exact .ok _ _
  · exact .bind (.mapM fun _ _ ↦ .bind rejectsOnly_extensionName fun _ _ ↦
      .bind (rejectsOnly_decimalText _ _) fun _ _ ↦ .pure _ _) fun _ _ ↦ .pure _ _

/-- With all signatures at hand, only the emission is left to fail. -/
theorem rejectsOnly_sections (hc : c.Closed) {P : GenerationError → Prop}
    (hsignatures : RejectsOnly P c.signatures)
    (hemission : ∀ error, c.document.EmissionCause error → P error) :
    RejectsOnly P c.sections := by
  have htooLong : ∀ error, TooLong error → P error := fun error h ↦ hemission error (Or.inl h)
  exact .bind hsignatures fun signatures hok ↦ .bind (rejectsOnly_fileHeader _ _ _) fun _ _ ↦
    .bind ((rejectsOnly_constantsSource hc).mono htooLong) fun _ _ ↦
    .bind (rejectsOnly_versionSource.mono htooLong) fun _ _ ↦
    .bind ((rejectsOnly_typeSections hc).mono hemission) fun ⟨_, _⟩ _ ↦
    .bind (rejectsOnly_aliasSource.mono htooLong) fun _ _ ↦
    .bind (.mapM fun _ _ ↦ rejectsOnly_resultCheckSource.mono htooLong) fun _ _ ↦
    .bind ((rejectsOnly_commandPointers hc).mono htooLong) fun ⟨_, _⟩ _ ↦
    .bind ((rejectsOnly_dispatchSource hc hok).mono hemission) fun _ _ ↦
    .bind (rejectsOnly_extensionSource.mono htooLong) fun _ _ ↦ .pure _ _

end Context

/-! ## Signatures -/

/-- The link of a parameter to its length is ambiguous. -/
def AmbiguousLink (error : GenerationError) : Prop := error.code = .ambiguousLengthLink

theorem of_lengthLink_eq_error {command : String} {param : Field} {params : List Field}
    {e : Failure} (h : lengthLink command param params = .error e) :
    ∃ error, e = .rejected error ∧ AmbiguousLink error := by
  rw [lengthLink] at h
  split at h
  · exact absurd h (by simp)
  · dsimp only at h
    split at h
    · exact absurd h (by simp)
    · split at h
      · exact ⟨_, (Except.error.inj h).symm, rfl⟩
      · split at h
        · exact absurd h (by simp)
        · split at h
          · exact ⟨_, (Except.error.inj h).symm, rfl⟩
          · split at h
            · exact absurd h (by simp)
            · exact ⟨_, (Except.error.inj h).symm, rfl⟩

/-- A command has a signature unless a link is ambiguous. -/
theorem CommandDecl.of_lower_eq_error {command : CommandDecl}
    {partitions : Table String ResultPartition} {e : Failure}
    (h : command.lower partitions = .error e) :
    ∃ error, e = .rejected error ∧ AmbiguousLink error := by
  obtain hlinks | ⟨links, -, hlinks⟩ := Result.bind_eq_error_iff.mp h
  · obtain ⟨p, -, links, hstep⟩ := Result.exists_of_foldlM_eq_error hlinks
    obtain hlink | ⟨link, -, hlink⟩ := Result.bind_eq_error_iff.mp hstep
    · exact of_lengthLink_eq_error hlink
    · cases link <;> exact absurd hlink Result.pure_ne_error
  · exact absurd hlinks Result.pure_ne_error

theorem CommandDecl.rejectsOnly_lower {command : CommandDecl}
    {partitions : Table String ResultPartition} :
    RejectsOnly AmbiguousLink (command.lower partitions) := by
  intro error herror
  obtain ⟨error', hrejected, hambiguous⟩ := CommandDecl.of_lower_eq_error herror
  exact Failure.rejected.inj hrejected ▸ hambiguous

/-! ## Bindings -/

theorem Document.Accepted.rejectsOnly_bindings {d : Document} (hd : d.Accepted) :
    RejectsOnly (fun error ↦ Cyclic error ∨ AmbiguousLink error ∨ d.EmissionCause error)
      d.bindings := by
  refine .bind (hd.rejectsOnly_ofDocument.mono fun _ ↦ Or.inl) fun c h ↦ ?_
  obtain ⟨rfl, -, -⟩ := Context.ofDocument_eq_ok h
  refine .bind (Context.rejectsOnly_sections (hd.closed h) ?_ fun _ ↦ Or.inr ∘ Or.inr) fun _ _ ↦
    .pure _ _
  exact .mapM fun _ _ ↦ CommandDecl.rejectsOnly_lower.mono fun _ ↦ Or.inr ∘ Or.inl

/-- **What is left to reject an accepted document for.** Once its types have an order, every name
that is used as a type is rendered, every alias of a type has its target, and everything that is
declared in order has a form in Zig, enum types with their enums. So bindings fail with a rejection
only if the types have no order, an identifier is too long, the length of an array is ambiguous, or
a discriminant or the code of success is written that its enum lacks. -/
theorem bindings_reject_only {d : Document} (hd : d.Accepted) :
    (∀ c, Context.ofDocument d = .ok c →
      (∀ n, d.Uses n → ∀ error, c.baseType n = .error (.rejected error) → error.code ≠
        .danglingTypeReference) ∧
      (∀ n ∈ d.types.keys, ∃ target, aliasTarget d.types n = .ok target) ∧
      ∀ decl ∈ c.graph.order,
        (∀ error, c.declarationSource decl = .error (.rejected error) → error.code ≠
          .unhandledDeclarationKind) ∧
        ∀ n, decl = .enum n → ∃ e, d.enums.get? n = some e) ∧
    ∀ error, d.bindings = .error (.rejected error) →
      error.code = .cyclicTypeDependency ∨ error.code = .identifierTooLong ∨
      error.code = .ambiguousLengthLink ∨
      ∃ block value decl, error = .notAValue value block ∧ d.WritesValue block value ∧
        d.enums.get? block = some decl ∧ decl.Lacks value := by
  refine ⟨fun c h ↦ ?_, ?_⟩
  · have hc := hd.closed h
    obtain ⟨rfl, -, -⟩ := Context.ofDocument_eq_ok h
    refine ⟨fun n hn error herror ↦ ?_, hc.aliasTarget_ok, fun decl hdecl ↦ ?_⟩
    · have hcode : error.code = .identifierTooLong :=
        Context.rejectsOnly_baseType (hc.knows n hn) error herror
      rw [hcode]
      simp
    · obtain ⟨hvalue, halias⟩ := hc.mem_order decl hdecl
      refine ⟨fun error herror ↦ ?_, fun n hn ↦ ?_⟩
      · obtain hcode | ⟨block, value, decl, rfl, -⟩ :=
          Context.rejectsOnly_declarationSource hc hvalue halias error herror
        · rw [TooLong] at hcode
          rw [hcode]
          simp
        · simp [GenerationError.code]
      · exact (Table.mem_keys_iff _).mp (hc.enum_types n (hn ▸ hvalue))
  · intro error herror
    obtain hcyclic | hambiguous | htooLong | hlacks := hd.rejectsOnly_bindings error herror
    · exact Or.inl hcyclic
    · exact Or.inr (Or.inr (Or.inl hambiguous))
    · exact Or.inr (Or.inl htooLong)
    · exact Or.inr (Or.inr (Or.inr hlacks))

/-- A struct with a discriminant that is given by another spelling, of a value that the enum does
not have. -/
def strayRegistry : Element :=
  ⟨"registry", [], "", [
    ⟨"types", [], "", [
      ⟨"type", [("category", "enum"), ("name", "XrType")], "", [], ""⟩,
      ⟨"type", [("category", "struct"), ("name", "XrThing")], "", [
        ⟨"member", [("values", "XR_TYPE_THING")], "", [
          ⟨"type", [], "XrType", [], " "⟩, ⟨"name", [], "kind", [], ""⟩], ""⟩], ""⟩], ""⟩,
    ⟨"enums", [("name", "XrType"), ("type", "enum")], "", [
      ⟨"enum", [("name", "XR_TYPE_THING"), ("alias", "XR_TYPE_OTHER")], "", [], ""⟩], ""⟩], ""⟩

def strayEnum : EnumDecl where
  name := "XrType"
  kind := "enum"
  values := [
    { name := some "XR_TYPE_THING", meaning := .aliasOf "XR_TYPE_OTHER", origin := "core" }]

def strayDocument : Document where
  tags := []
  types := Table.ofList [
    (some "XrType", .enum "XrType"),
    (some "XrThing", .struct "XrThing"
      [{ name := "kind", typeName := "XrType", values := some "XR_TYPE_THING" }] [] false)]
  enums := Table.ofList [("XrType", strayEnum)]
  commands := .empty
  commandAliases := .empty
  apiConstants := .empty
  features := []
  extensions := []
  origins := .empty
  version := "unknown"

set_option maxRecDepth 20000 in
theorem strayDocument_accepted : strayDocument.Accepted :=
  ⟨strayRegistry, by with_unfolding_all rfl⟩

/-- The value is rejected, and all that is left is that its enum lacks it. -/
theorem bindings_reject_only_stray :
    strayDocument.Accepted ∧ ∃ decl, strayDocument.enums.get? "XrType" = some decl ∧
      strayDocument.bindings = .error (.rejected (.notAValue "XR_TYPE_THING" "XrType")) ∧
      decl.Lacks "XR_TYPE_THING" := by
  have hfails : strayDocument.bindings =
      .error (.rejected (.notAValue "XR_TYPE_THING" "XrType")) := by decide +kernel
  obtain hcode | hcode | hcode | ⟨block, value, decl, herror, -, hdecl, hlacks⟩ :=
    (bindings_reject_only strayDocument_accepted).2 _ hfails
  · exact absurd hcode (by decide)
  · exact absurd hcode (by decide)
  · exact absurd hcode (by decide)
  · obtain ⟨rfl, rfl⟩ := GenerationError.notAValue.inj herror
    exact ⟨strayDocument_accepted, decl, hdecl, hfails, hlacks⟩

/-- The enum does have a value of the name: it is there as another spelling that leads nowhere. -/
theorem bindings_strayDocument :
    strayDocument.Accepted ∧ (∃ c, Context.ofDocument strayDocument = .ok c) ∧
      ∃ error, strayDocument.bindings = .error (.rejected error) ∧
        error.code = .danglingTypeReference ∧ ∀ block value, error = .notAValue value block →
          ∃ decl, strayDocument.enums.get? block = some decl ∧
            some value ∈ decl.values.map (·.name) := by
  refine ⟨strayDocument_accepted, ⟨_, by with_unfolding_all rfl⟩,
    .notAValue "XR_TYPE_THING" "XrType", by decide +kernel, rfl, fun block value herror ↦ ?_⟩
  obtain ⟨rfl, rfl⟩ := GenerationError.notAValue.inj herror
  exact ⟨strayEnum, rfl, List.mem_singleton_self _⟩

end XrBindings
