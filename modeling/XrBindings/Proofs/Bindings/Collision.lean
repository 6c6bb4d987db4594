import XrBindings.Proofs.Bindings.Scope

/-!
# Names that collide

The rules that name what is in scope drop prefixes, change letters between cases and leave out
underscores, so two of them can give the same name, and so can one rule for two items. Nothing is
renamed then, and the name is declared twice. A pointer to a command is the exception: if its name
is taken by a type or by the pointer to an earlier command, no pointer is declared. The table still
refers to the command by that name, and so by whatever type has been declared with it.
-/

namespace XrBindings

open XrBindings.Naming XrBindings.Zig XrBindings.Xml

/-- The names that sections declare in the file, in their order. -/
def fileNames (sections : List (List String)) : List String :=
  (declarations sections.flatten).map Prod.fst

namespace Context

variable {c : Context} {sections : List (List String)} {items : List ScopeItem}
  {lines : List String} {name : String} {command other : CommandDecl}

/-! ## Distinct names -/

theorem Reads.map_itemName (h : c.Reads items lines) :
    items.map c.itemName = ((declarations lines).map Prod.fst).map Except.ok := by
  rw [Reads] at h
  generalize declarations lines = entries at *
  induction h with
  | nil => rfl
  | cons hitem _ ih => rw [List.map_cons, List.map_cons, List.map_cons, hitem.itemName_eq, ih]

theorem Reads.mem_names_iff (h : c.Reads items lines) :
    name ∈ (declarations lines).map Prod.fst ↔ ∃ item ∈ items, c.itemName item = .ok name := by
  have hok : Function.Injective (Except.ok : String → Result String) := fun _ _ ↦ Except.ok.inj
  rw [← List.mem_map_of_injective hok, ← h.map_itemName, List.mem_map]

theorem Reads.nodup_names_iff (h : c.Reads items lines) (hitems : items.Nodup) :
    ((declarations lines).map Prod.fst).Nodup ↔
      ∀ item ∈ items, ∀ item' ∈ items, c.itemName item = c.itemName item' → item = item' := by
  rw [← List.nodup_map_iff_inj_on hitems, h.map_itemName,
    List.nodup_map_iff fun _ _ ↦ Except.ok.inj]

theorem OwnsPointer.unique (h : c.OwnsPointer command) (h' : c.OwnsPointer other)
    (hsame : c.renderer.commandPointerName other.name =
      c.renderer.commandPointerName command.name) : other = command := by
  obtain ⟨-, before, hprefix, hbefore⟩ := h
  obtain ⟨-, before', hprefix', hbefore'⟩ := h'
  obtain hshort | hlong := List.prefix_or_prefix_of_prefix hprefix hprefix'
  · obtain heq | hshort := List.prefix_concat_iff.mp hshort
    · exact (List.head_eq_of_cons_eq (List.append_inj' heq rfl).2).symm
    · exact absurd hsame.symm (hbefore' command (hshort.subset (by simp)))
  · obtain heq | hlong := List.prefix_concat_iff.mp hlong
    · exact List.head_eq_of_cons_eq (List.append_inj' heq rfl).2
    · exact absurd hsame (hbefore other (hlong.subset (by simp)))

/-! ## The type of a pointer -/

theorem exists_inScope_of_command (hcommand : command ∈ c.document.commands.values) :
    ∃ item, c.InScope item ∧ c.itemName item = c.renderer.commandPointerName command.name := by
  by_cases htype : ∃ decl ∈ c.declaredTypes,
      c.declaredName decl.name = c.renderer.commandPointerName command.name
  · obtain ⟨decl, hdecl, hname⟩ := htype
    exact ⟨.type decl, hdecl, hname⟩
  · obtain ⟨first, hfirst⟩ : ∃ first, c.document.commands.values.find? (fun other ↦
        c.renderer.commandPointerName other.name = c.renderer.commandPointerName command.name)
          = some first := by
      rw [← Option.isSome_iff_exists, List.find?_isSome]
      exact ⟨command, hcommand, decide_eq_true rfl⟩
    obtain ⟨hname, before, after, hsplit, hbefore⟩ := List.find?_eq_some_iff_append.mp hfirst
    have hname := of_decide_eq_true hname
    refine ⟨.pointer first, ⟨fun decl hdecl hsame ↦ htype ⟨decl, hdecl, hsame.trans hname⟩,
      before, ⟨after, by simp [hsplit]⟩, fun other hother hsame ↦ ?_⟩, hname⟩
    simpa [hsame.trans hname] using hbefore other hother

/-- The table holds every command, by the name of its pointer. -/
theorem pointerMember_mem_dispatchSource {signatures : List WrapperSignature}
    (h : c.dispatchSource signatures = .ok lines)
    (hcommand : command ∈ c.document.commands.values) :
    ∃ name, c.renderer.commandPointerName command.name = .ok name ∧
      "    " ++ command.name ++ ": ?" ++ name ++ " = null," ∈ lines := by
  obtain ⟨members, hmembers, h⟩ := Result.bind_eq_ok_iff.mp h
  obtain ⟨load, -, h⟩ := Result.bind_eq_ok_iff.mp h
  obtain ⟨wrappers, -, h⟩ := Result.bind_eq_ok_iff.mp h
  obtain ⟨aliases, -, h⟩ := Result.bind_eq_ok_iff.mp h
  obtain rfl := Result.pure_eq_ok_iff.mp h
  obtain ⟨line, hline, hmember⟩ := Result.exists_of_mapM hmembers hcommand
  obtain ⟨name, hname, hmember⟩ := Result.bind_eq_ok_iff.mp hmember
  obtain rfl := Result.pure_eq_ok_iff.mp hmember
  exact ⟨name, hname, by simp [hline]⟩

theorem pointerMember_mem_sections (h : c.sections = .ok sections)
    (hcommand : command ∈ c.document.commands.values) :
    ∃ name, c.renderer.commandPointerName command.name = .ok name ∧
      "    " ++ command.name ++ ": ?" ++ name ++ " = null," ∈ sections.flatten := by
  obtain ⟨_, _, _, _, _, _, _, _, _, _, dispatch, _, -, -, -, -, -, -, -, -, hdispatch, -, rfl⟩ :=
    sections_eq_ok h
  obtain ⟨name, hname, hmember⟩ := pointerMember_mem_dispatchSource hdispatch hcommand
  exact ⟨name, hname, List.mem_flatten.mpr ⟨dispatch, by simp, hmember⟩⟩

theorem Reads.forall_value_iff (h : c.Reads items lines) {type : String}
    (htype : IsPointerText type) :
    (∀ text, (name, text) ∈ declarations lines → text = " = " ++ type ++ ";") ↔
      ∀ item ∈ items, c.itemName item = .ok name → c.HasSignature item type := by
  constructor
  · intro hall item hitem hname
    obtain ⟨⟨name', text⟩, he, hdeclares⟩ := h.exists_declaration hitem
    obtain rfl := Except.ok.inj (hname.symm.trans hdeclares.itemName_eq)
    exact (hdeclares.signature_iff type htype).mp (hall text he)
  · intro hall text he
    obtain ⟨item, hitem, hdeclares⟩ := h.exists_item he
    exact (hdeclares.signature_iff type htype).mpr (hall item hitem hdeclares.itemName_eq)

end Context

open Context

/-- **The names in the file are distinct exactly if no two items in scope are named alike.** The
declared names are those of the items. A pointer shares its name with no type and with no other
pointer, but may share it with the rest. -/
theorem fileNames_nodup_iff {d : Document} {c : Context} {sections : List (List String)}
    (hd : d.Accepted) (hc : Context.ofDocument d = .ok c) (h : c.sections = .ok sections) :
    (∀ name, name ∈ fileNames sections ↔ ∃ item, c.InScope item ∧ c.itemName item = .ok name) ∧
    ((fileNames sections).Nodup ↔ ∀ item item', c.InScope item → c.InScope item' →
      c.itemName item = c.itemName item' → item = item') ∧
    ∀ command, c.InScope (.pointer command) →
      (∀ decl, c.InScope (.type decl) →
        c.itemName (.type decl) ≠ c.itemName (.pointer command)) ∧
      ∀ other, c.InScope (.pointer other) →
        c.itemName (.pointer other) = c.itemName (.pointer command) → other = command := by
  obtain ⟨items, hnodup, hscope, hreads⟩ := exists_reads_sections hd hc h
  refine ⟨fun name ↦ ?_, ?_, fun command hcommand ↦ ⟨hcommand.1, fun other hother ↦ ?_⟩⟩
  · rw [fileNames, hreads.mem_names_iff]
    simp only [hscope]
  · rw [fileNames, hreads.nodup_names_iff hnodup]
    simp only [hscope]
    exact ⟨fun h item item' hitem hitem' ↦ h item hitem item' hitem',
      fun h item hitem item' hitem' ↦ h item item' hitem hitem'⟩
  · exact OwnsPointer.unique hcommand hother

/-! ### A pointer type that is named like the pointer to a command -/

/-- Two commands, and a pointer type that is named like the pointer to the second. -/
def callbackRegistry : Element :=
  ⟨"registry", [], "", [
    ⟨"types", [], "", [
      ⟨"type", [("category", "funcpointer")], "", [
        ⟨"proto", [], "", [
          ⟨"type", [], "void", [], ""⟩, ⟨"name", [], "PFN_xrPoll", [], ""⟩], ""⟩], ""⟩], ""⟩,
    ⟨"commands", [], "", [
      ⟨"command", [], "", [
        ⟨"proto", [], "", [⟨"type", [], "void", [], ""⟩, ⟨"name", [], "xrStop", [], ""⟩], ""⟩], ""⟩,
      ⟨"command", [], "", [
        ⟨"proto", [], "", [⟨"type", [], "float", [], ""⟩, ⟨"name", [], "xrPoll", [], ""⟩], ""⟩],
        ""⟩], ""⟩], ""⟩

def callbackType : TypeDecl :=
  .functionPointer "PFN_xrPoll" { name := "PFN_xrPoll", typeName := "void" } []

def callbackStop : CommandDecl where
  name := "xrStop"
  returns := { name := "", typeName := "void" }
  params := []

def callbackPoll : CommandDecl where
  name := "xrPoll"
  returns := { name := "", typeName := "float" }
  params := []

def callbackDocument : Document where
  tags := []
  types := Table.ofList [(some "PFN_xrPoll", callbackType)]
  enums := .empty
  commands := Table.ofList [("xrStop", callbackStop), ("xrPoll", callbackPoll)]
  commandAliases := .empty
  apiConstants := .empty
  features := []
  extensions := []
  origins := .empty
  version := "unknown"

def callbackContext : Context where
  document := callbackDocument
  graph := {
    order := [callbackType]
    canonical := Table.ofList [(some "PFN_xrPoll", some "PFN_xrPoll")]
    aliases := [] }
  renderer := ⟨[]⟩
  partitions := .empty
  flagOwners := .empty

set_option maxRecDepth 10000 in
theorem callbackDocument_accepted : callbackDocument.Accepted :=
  ⟨callbackRegistry, by with_unfolding_all rfl⟩

theorem ofDocument_callbackDocument :
    Context.ofDocument callbackDocument = .ok callbackContext := by with_unfolding_all rfl

theorem names_callbackContext :
    callbackContext.sections.isOk = true ∧
      callbackContext.declaredName callbackType.name = .ok "PfnPoll" ∧
      callbackContext.renderer.commandPointerName "xrPoll" = .ok "PfnPoll" ∧
      callbackContext.renderer.commandPointerName "xrStop" = .ok "PfnStop" := by decide +kernel

theorem exists_sections_callbackContext : ∃ sections, callbackContext.sections = .ok sections :=
  Result.exists_eq_ok_of_isOk names_callbackContext.1

/-- The second command has no pointer. -/
theorem eq_of_inScope_callbackContext {item : ScopeItem} (h : callbackContext.InScope item) :
    item = .type callbackType ∨ item = .pointer callbackStop ∨ item = .dispatch := by
  have hversion : ¬callbackDocument.hasType versionType = true := by decide
  obtain ⟨-, htype, hpoll, -⟩ := names_callbackContext
  cases item with
  | constant name => exact absurd h List.not_mem_nil
  | makeVersion => exact absurd h hversion
  | currentVersion => exact absurd h.1 hversion
  | type decl => exact Or.inl (congrArg _ (List.mem_singleton.mp h))
  | typeAlias spelling declared => exact absurd h.1 List.not_mem_nil
  | errorSet p => exact absurd h List.not_mem_nil
  | check p => exact absurd h List.not_mem_nil
  | pointer command =>
    obtain ⟨hfree, before, hprefix, -⟩ := h
    have hcommand : command ∈ [callbackStop, callbackPoll] := hprefix.subset (by simp)
    obtain rfl | rfl : command = callbackStop ∨ command = callbackPoll := by simpa using hcommand
    · exact Or.inr (Or.inl rfl)
    · refine absurd (hfree callbackType (List.mem_singleton_self _)) (not_not_intro ?_)
      exact htype.trans hpoll.symm
  | dispatch => exact Or.inr (Or.inr rfl)
  | extensionInfo => exact absurd rfl h
  | extensionTable => exact absurd rfl h

theorem nodup_itemName_callbackContext :
    ([.type callbackType, .pointer callbackStop, .dispatch].map
      callbackContext.itemName).Nodup := by
  obtain ⟨-, htype, -, hstop⟩ := names_callbackContext
  simp [itemName, htype, callbackStop, hstop]

/-- The type, the pointer to the first command and the table are named differently. -/
theorem fileNames_nodup_iff_callback :
    callbackDocument.Accepted ∧ Context.ofDocument callbackDocument = .ok callbackContext ∧
      ∃ sections, callbackContext.sections = .ok sections ∧ (fileNames sections).Nodup := by
  obtain ⟨sections, hsections⟩ := exists_sections_callbackContext
  refine ⟨callbackDocument_accepted, ofDocument_callbackDocument, sections, hsections, ?_⟩
  obtain ⟨-, hnodup, -⟩ :=
    fileNames_nodup_iff callbackDocument_accepted ofDocument_callbackDocument hsections
  rw [hnodup]
  intro item item' hitem hitem'
  refine List.inj_on_of_nodup_map nodup_itemName_callbackContext ?_ ?_
  · simpa using eq_of_inScope_callbackContext hitem
  · simpa using eq_of_inScope_callbackContext hitem'

/-! ### Two types with one name -/

/-- Two structs whose names differ by the prefix of the registry only. -/
def poseRegistry : Element :=
  ⟨"registry", [], "", [⟨"types", [], "", [
    ⟨"type", [("category", "struct"), ("name", "XrPose")], "", [], ""⟩,
    ⟨"type", [("category", "struct"), ("name", "Pose")], "", [], ""⟩], ""⟩], ""⟩

def poseDocument : Document where
  tags := []
  types := Table.ofList [
    (some "XrPose", .struct "XrPose" [] [] false), (some "Pose", .struct "Pose" [] [] false)]
  enums := .empty
  commands := .empty
  commandAliases := .empty
  apiConstants := .empty
  features := []
  extensions := []
  origins := .empty
  version := "unknown"

def poseContext : Context where
  document := poseDocument
  graph := {
    order := [.struct "XrPose" [] [] false, .struct "Pose" [] [] false]
    canonical := Table.ofList [(some "XrPose", some "XrPose"), (some "Pose", some "Pose")]
    aliases := [] }
  renderer := ⟨[]⟩
  partitions := .empty
  flagOwners := .empty

set_option maxRecDepth 10000 in
theorem poseDocument_accepted : poseDocument.Accepted := ⟨poseRegistry, by with_unfolding_all rfl⟩

/-- Both structs are declared as `Pose`. -/
theorem fileNames_collide_pose :
    poseDocument.Accepted ∧ Context.ofDocument poseDocument = .ok poseContext ∧
      (∀ name ∈ ["XrPose", "Pose"], poseContext.declaredName (some name) = .ok "Pose") ∧
      ∃ sections, poseContext.sections = .ok sections ∧ "Pose" ∈ fileNames sections ∧
        ¬(fileNames sections).Nodup := by
  have hcontext : Context.ofDocument poseDocument = .ok poseContext := by with_unfolding_all rfl
  have hnames : poseContext.sections.isOk = true ∧
      ∀ name ∈ ["XrPose", "Pose"], poseContext.declaredName (some name) = .ok "Pose" := by
    decide +kernel
  obtain ⟨hok, hname⟩ := hnames
  obtain ⟨sections, hsections⟩ := Result.exists_eq_ok_of_isOk hok
  obtain ⟨items, hnodup, hscope, hreads⟩ :=
    exists_reads_sections poseDocument_accepted hcontext hsections
  have hfirst : ScopeItem.type (.struct "XrPose" [] [] false) ∈ items :=
    (hscope _).mpr List.mem_cons_self
  have hsecond : ScopeItem.type (.struct "Pose" [] [] false) ∈ items :=
    (hscope _).mpr (List.mem_cons_of_mem _ (List.mem_singleton_self _))
  refine ⟨poseDocument_accepted, hcontext, hname, sections, hsections, ?_, ?_⟩
  · exact hreads.mem_names_iff.mpr ⟨_, hfirst, hname "XrPose" (by simp)⟩
  · rw [fileNames, hreads.nodup_names_iff hnodup]
    intro hdistinct
    have hsame := hdistinct _ hfirst _ hsecond
      ((hname "XrPose" (by simp)).trans (hname "Pose" (by simp)).symm)
    exact absurd hsame (by decide)

/-- **A command has a pointer of its own type exactly if whatever is named like the pointer is a
pointer to functions of that type.** The table refers to the command by that name in any case, and
the name is always declared. -/
theorem pointer_type_iff {d : Document} {c : Context} {sections : List (List String)}
    {command : CommandDecl} (hd : d.Accepted) (hc : Context.ofDocument d = .ok c)
    (h : c.sections = .ok sections) (hcommand : command ∈ d.commands.values) :
    ∃ name, c.renderer.commandPointerName command.name = .ok name ∧
      "    " ++ command.name ++ ": ?" ++ name ++ " = null," ∈ sections.flatten ∧
      name ∈ fileNames sections ∧
      ((∃ type, c.functionType command.returns command.params = .ok type ∧
        ∀ text, (name, text) ∈ declarations sections.flatten → text = " = " ++ type ++ ";") ↔
      ∃ type, c.functionType command.returns command.params = .ok type ∧
        ∀ item, c.InScope item → c.itemName item = .ok name → c.HasSignature item type) := by
  obtain ⟨items, -, hscope, hreads⟩ := exists_reads_sections hd hc h
  obtain ⟨rfl, -, -⟩ := ofDocument_eq_ok hc
  obtain ⟨name, hname, hmember⟩ := pointerMember_mem_sections h hcommand
  obtain ⟨item, hitem, hitemName⟩ := exists_inScope_of_command hcommand
  have hdeclared : name ∈ fileNames sections :=
    hreads.mem_names_iff.mpr ⟨item, (hscope item).mpr hitem, hitemName.trans hname⟩
  refine ⟨name, hname, hmember, hdeclared, exists_congr fun type ↦ and_congr_right fun htype ↦ ?_⟩
  rw [hreads.forall_value_iff (isPointerText_functionType htype)]
  simp only [hscope]

/-- The first command has a pointer of its own type. -/
theorem pointer_type_iff_callback :
    callbackDocument.Accepted ∧ Context.ofDocument callbackDocument = .ok callbackContext ∧
      callbackStop ∈ callbackDocument.commands.values ∧
      ∃ sections, callbackContext.sections = .ok sections ∧ ∃ name type,
        callbackContext.renderer.commandPointerName callbackStop.name = .ok name ∧
        callbackContext.functionType callbackStop.returns callbackStop.params = .ok type ∧
        ∀ text, (name, text) ∈ declarations sections.flatten → text = " = " ++ type ++ ";" := by
  have hcommand : callbackStop ∈ callbackDocument.commands.values := List.mem_cons_self
  obtain ⟨sections, hsections⟩ := exists_sections_callbackContext
  obtain ⟨name, hname, -, -, hiff⟩ :=
    pointer_type_iff callbackDocument_accepted ofDocument_callbackDocument hsections hcommand
  have htype : callbackContext.functionType callbackStop.returns callbackStop.params =
      .ok "*const fn () callconv(.c) void" := by with_unfolding_all rfl
  obtain ⟨type, htype, hall⟩ := hiff.mpr ⟨_, htype, fun item hitem hitemName ↦ by
    have hsame : item = .pointer callbackStop :=
      List.inj_on_of_nodup_map nodup_itemName_callbackContext
        (by simpa using eq_of_inScope_callbackContext hitem) (by simp) (hitemName.trans hname.symm)
    exact hsame ▸ htype⟩
  exact ⟨callbackDocument_accepted, ofDocument_callbackDocument, hcommand, sections, hsections,
    name, type, hname, htype, hall⟩

/-- The pointer to the second command is the type of the registry, and its result is different. -/
theorem pointer_type_differs_callback :
    callbackDocument.Accepted ∧ Context.ofDocument callbackDocument = .ok callbackContext ∧
      callbackPoll ∈ callbackDocument.commands.values ∧
      callbackContext.renderer.commandPointerName callbackPoll.name = .ok "PfnPoll" ∧
      callbackContext.functionType callbackPoll.returns callbackPoll.params =
        .ok "*const fn () callconv(.c) f32" ∧
      ∃ sections, callbackContext.sections = .ok sections ∧
        ("PfnPoll", " = *const fn () callconv(.c) void;") ∈ declarations sections.flatten := by
  have hcommand : callbackPoll ∈ callbackDocument.commands.values :=
    List.mem_cons_of_mem _ (List.mem_singleton_self _)
  obtain ⟨sections, hsections⟩ := exists_sections_callbackContext
  obtain ⟨-, hname, hpoll, -⟩ := names_callbackContext
  refine ⟨callbackDocument_accepted, ofDocument_callbackDocument, hcommand, hpoll,
    by with_unfolding_all rfl, sections, hsections, ?_⟩
  obtain ⟨items, -, hscope, hreads⟩ :=
    exists_reads_sections callbackDocument_accepted ofDocument_callbackDocument hsections
  have htype : callbackContext.InScope (.type callbackType) := List.mem_singleton_self _
  obtain ⟨⟨name, text⟩, he, hdeclares⟩ := hreads.exists_declaration ((hscope _).mpr htype)
  obtain rfl := Except.ok.inj (hname.symm.trans hdeclares.itemName_eq)
  have hfunction :
      callbackContext.DeclaresFunction callbackType "*const fn () callconv(.c) void" := by
    rw [callbackType, DeclaresFunction]
    with_unfolding_all rfl
  obtain rfl := (hdeclares.signature_iff _ (by simp [IsPointerText])).mpr hfunction
  exact he

end XrBindings
