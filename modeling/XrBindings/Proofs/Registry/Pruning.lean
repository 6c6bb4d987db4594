import XrBindings.Proofs.Registry.Reading
import XrBindings.Proofs.Result

/-!
# Loading a pruned document

Loading reads of every part of a document no more than pruning keeps of it, so that a document and
what pruning keeps of it load to the same registry, or fail in the same way. There is one lemma for
each part of loading, and each says so about the role in which the part is read.
-/

namespace XrBindings.Load

open XrBindings.Text XrBindings.Xml

variable {r : Role} {e x y : Element}

/-- A run over children that are kept where a condition holds, and whose steps do nothing where it
does not. -/
theorem foldlM_keep {β : Type} {f : β → Element → Result β} {xs : List Element}
    {kept : Element → Bool} {role : Element → Role}
    (hkeep : ∀ x ∈ xs, keep r x = if kept x then some (prune (role x) x) else none)
    (hstep : ∀ x b, f b (prune (role x) x) = f b x) (hdrop : ∀ x b, ¬kept x → f b x = .ok b)
    (start : β) : (xs.filterMap (keep r)).foldlM f start = xs.foldlM f start := by
  refine Result.foldlM_filterMap_eq (fun x hx y hy b ↦ ?_) (fun x hx hnone b ↦ ?_) start
  · rw [hkeep x hx] at hy
    split at hy <;> cases hy
    exact hstep x b
  · rw [hkeep x hx] at hnone
    split at hnone
    · cases hnone
    · exact hdrop x b ‹_›

/-! ## Fields -/

theorem reads_field_type (h : x.tag = "type") : Role.field.reads x = some { role := .leaf } := by
  simp [h]

theorem reads_field_name (h : x.tag = "name") : Role.field.reads x = some { role := .leaf } := by
  simp [h]

theorem reads_field_enum (h : x.tag = "enum") : Role.field.reads x = some { role := .leaf } := by
  simp [h]

theorem exists_child?_of_childText? {tag text : String} (h : childText? e tag = some text) :
    ∃ c, e.child? tag = some c := by
  obtain ⟨c, hc, -⟩ := Option.map_eq_some_iff.mp (Option.eq_some_of_filter_eq_some h)
  exact ⟨c, hc⟩

theorem arraySize_prune (e : Element) (afterName : String) :
    arraySize (prune .field e) afterName = arraySize e afterName := by
  rw [arraySize, arraySize, child?_prune fun _ ↦ reads_field_enum]
  cases e.child? "enum" with
  | none => rfl
  | some c => by_cases hc : c.text.isEmpty <;> simp [hc, Option.filter]

theorem field_prune (e : Element) : field (prune (fieldRole e) e) = field e := by
  rw [fieldRole]
  split
  · rename_i hparts
    obtain ⟨htype, hname⟩ := Bool.and_eq_true_iff.mp hparts
    obtain ⟨typeName, htype⟩ := Option.isSome_iff_exists.mp htype
    obtain ⟨name, hname⟩ := Option.isSome_iff_exists.mp hname
    obtain ⟨typeChild, htypeChild⟩ := exists_child?_of_childText? htype
    obtain ⟨nameChild, hnameChild⟩ := exists_child?_of_childText? hname
    simp [field, child?_prune fun _ ↦ reads_field_type, child?_prune fun _ ↦ reads_field_name,
      childText?_prune fun _ ↦ reads_field_type, childText?_prune fun _ ↦ reads_field_name,
      htype, hname, htypeChild, hnameChild, arraySize_prune]
  · rw [prune_whole]

theorem fields_prune {tag : String}
    (h : ∀ x, x.tag = tag → r.reads x = some { role := fieldRole x }) (e : Element) :
    ((prune r e).childrenNamed tag).mapM field = (e.childrenNamed tag).mapM field := by
  rw [childrenNamed_prune_of_reads h, List.mapM_map]
  exact congrArg (List.mapM · _) (funext field_prune)

theorem askedFields_prune {tag : String}
    (h : ∀ x, x.tag = tag → r.reads x = some { role := fieldRole x, asks := true }) (e : Element) :
    (((prune r e).childrenNamed tag).filter fun x ↦ supportsApi (x.get? "api")).mapM field =
      ((e.childrenNamed tag).filter fun x ↦ supportsApi (x.get? "api")).mapM field := by
  rw [childrenNamed_prune_of_reads_asks h, List.filter_map, List.mapM_map]
  simp only [Function.comp_def, get?_prune, field_prune, List.filter_filter, Bool.and_self]

/-! ## Type declarations -/

theorem reads_named_name {category : String} (h : x.tag = "name") :
    (Role.named category).reads x = some { role := .leaf } := by
  simp [h]

theorem declaredName?_prune (h : ∀ x, x.tag = "name" → r.reads x = some { role := .leaf })
    (e : Element) : declaredName? (prune r e) = declaredName? e := by
  rw [declaredName?, declaredName?, nonempty?_prune, child?_prune h]
  cases e.child? "name" with
  | none => rfl
  | some c => by_cases hc : c.text.isEmpty <;> simp [hc, Option.filter]

theorem typeText_prune {category : String} (h : category = "handle" ∨ category = "bitmask")
    (e : Element) : typeText (prune (.named category) e) = typeText e := by
  have hreads (x : Element) (hx : x.tag = "type") :
      (Role.named category).reads x = some { role := .leaf } := by
    simp [hx, h]
  simp [typeText, child?_prune hreads, Function.comp_def]

theorem members_prune {category : String} (h : category = "struct" ∨ category = "union")
    (e : Element) : members (prune (.named category) e) = members e :=
  askedFields_prune (fun x hx ↦ by simp [hx, h]) e

theorem namedType_prune {category : String} (h : category ≠ "basetype") (e : Element)
    (name : String) :
    namedType (prune (.named category) e) name category = namedType e name category := by
  unfold namedType
  split <;> simp_all [typeText_prune, members_prune]

theorem functionPointer_prune (h : (e.child? "proto").isSome) :
    functionPointer (prune .prototype e) = functionPointer e := by
  have hproto (x : Element) (hx : x.tag = "proto") :
      Role.prototype.reads x = some { role := fieldRole x } := by
    simp [hx]
  have hparam (x : Element) (hx : x.tag = "param") :
      Role.prototype.reads x = some { role := fieldRole x } := by
    simp [hx]
  obtain ⟨proto, hchild⟩ := Option.isSome_iff_exists.mp h
  simp only [functionPointer, child?_prune hproto, hchild, Option.map_some, field_prune,
    fields_prune hparam]

theorem typeElement_prune (e : Element) :
    typeElement (prune (typeRole e ((e.get? "category").getD "")) e) = typeElement e := by
  generalize hcategory : (e.get? "category").getD "" = category
  rw [typeRole]
  split_ifs with halias hproto hwhole
  · -- Another spelling is read for its name only, which a function pointer may even lack.
    obtain ⟨target, htarget⟩ := Option.isSome_iff_exists.mp (Bool.and_eq_true_iff.mp halias).1
    cases hname : declaredName? e <;>
      simp_all [typeElement, declaredName?_prune fun _ ↦ reads_named_name]
  · obtain ⟨hpointer, hproto⟩ := Bool.and_eq_true_iff.mp hproto
    simp_all [typeElement, functionPointer_prune]
  · rw [prune_whole]
  · simp only [Bool.or_eq_true, not_or, Bool.not_eq_true, Option.isNone_eq_false_iff] at hwhole
    obtain ⟨⟨hpointer, hname⟩, hbase⟩ := hwhole
    obtain ⟨name, hname⟩ := Option.isSome_iff_exists.mp hname
    have halias : e.nonempty? "alias" = none := by simpa [hname] using halias
    simp only [typeElement, get?_prune, nonempty?_prune, hcategory, hname, halias, hpointer,
      declaredName?_prune fun _ ↦ reads_named_name, namedType_prune (ne_of_beq_false hbase)]

theorem keep_type (htag : x.tag = "type") :
    ((x.get? "category").getD "" = "include" ∧ keep .types x = none) ∨
    ((x.get? "category").getD "" = "define" ∧
      keep .types x = if isVersionMacro x then some x else none) ∨
    ((x.get? "category").getD "" ≠ "include" ∧ (x.get? "category").getD "" ≠ "define" ∧
      keep .types x = if supportsApi (x.get? "api") then
        some (prune (typeRole x ((x.get? "category").getD "")) x) else none) := by
  by_cases hinclude : (x.get? "category").getD "" = "include"
  · exact Or.inl ⟨hinclude, by simp [keep, Role.keeps, htag, typeReading, hinclude]⟩
  by_cases hdefine : (x.get? "category").getD "" = "define"
  · refine Or.inr (Or.inl ⟨hdefine, ?_⟩)
    by_cases hversion : isVersionMacro x <;>
      simp [keep, Role.keeps, htag, typeReading, hdefine, hversion, prune_whole]
  · refine Or.inr (Or.inr ⟨hinclude, hdefine, keep_of_reads_asks ?_⟩)
    simp [htag, typeReading, hinclude, hdefine]

theorem typeElement_eq_none (h : (x.get? "category").getD "" = "include" ∨
    (x.get? "category").getD "" = "define") : typeElement x = .ok none := by
  obtain h | h := h <;> simp [typeElement, h]

theorem typeElement_of_keep (htag : x.tag = "type") (h : keep .types x = some y) :
    y.get? "api" = x.get? "api" ∧ typeElement y = typeElement x := by
  obtain ⟨-, hkeep⟩ | ⟨-, hkeep⟩ | ⟨-, -, hkeep⟩ := keep_type htag <;> rw [hkeep] at h
  · cases h
  · split at h <;> cases h
    exact ⟨rfl, rfl⟩
  · split at h <;> cases h
    exact ⟨get?_prune .., typeElement_prune x⟩

theorem typeElement_of_keep_eq_none (htag : x.tag = "type") (h : keep .types x = none)
    (hnative : supportsApi (x.get? "api")) : typeElement x = .ok none := by
  obtain ⟨hinclude, -⟩ | ⟨hdefine, -⟩ | ⟨-, -, hkeep⟩ := keep_type htag
  · exact typeElement_eq_none (Or.inl hinclude)
  · exact typeElement_eq_none (Or.inr hdefine)
  · simp [hkeep, hnative] at h

variable {versioned : Bool}

theorem types_prune (root : Element) : types (prune (.registry versioned) root) = types root := by
  rw [types, grandchildrenNamed_prune .types fun x hx ↦ by simp [hx]]
  refine Result.foldlM_filterMap_eq (fun x hx y hy table ↦ ?_) (fun x hx hnone table ↦ ?_) _
  · obtain ⟨hapi, hdecl⟩ := typeElement_of_keep (tag_of_mem_grandchildrenNamed hx) hy
    rw [hapi, hdecl]
  · by_cases hnative : supportsApi (x.get? "api")
    · rw [typeElement_of_keep_eq_none (tag_of_mem_grandchildrenNamed hx) hnone hnative]
      simp [hnative]
      rfl
    · simp [hnative]
      rfl

/-! ## The version -/

theorem macroVersion?_of_not_isVersionMacro (h : ¬isVersionMacro e) : macroVersion? e = none :=
  if_neg h

theorem macroVersion?_of_category_ne (h : (e.get? "category").getD "" ≠ "define") :
    macroVersion? e = none := by
  refine macroVersion?_of_not_isVersionMacro fun hversion ↦ h ?_
  simp only [isVersionMacro, Bool.and_eq_true, beq_iff_eq] at hversion
  simp [hversion.1]

theorem macroVersion?_keep (htag : x.tag = "type") :
    (keep .types x).bind macroVersion? = macroVersion? x := by
  obtain ⟨hinclude, hkeep⟩ | ⟨-, hkeep⟩ | ⟨-, hdefine, hkeep⟩ := keep_type htag <;> rw [hkeep]
  · exact (macroVersion?_of_category_ne (by simp [hinclude])).symm
  · split
    · rfl
    · exact (macroVersion?_of_not_isVersionMacro ‹_›).symm
  · rw [macroVersion?_of_category_ne hdefine]
    split
    · exact macroVersion?_of_category_ne (by rwa [get?_prune])
    · rfl

theorem declaredVersion?_prune (versioned : Bool) (root : Element) :
    declaredVersion? (prune (.registry versioned) root) = declaredVersion? root := by
  rw [declaredVersion?, grandchildrenNamed_prune .types fun x hx ↦ by simp [hx],
    ← List.head?_filterMap, List.filterMap_filterMap, declaredVersion?, ← List.head?_filterMap]
  exact congrArg _ (List.filterMap_congr fun x hx ↦
    macroVersion?_keep (tag_of_mem_grandchildrenNamed hx))

theorem version_of_declared {v : String} (h : declaredVersion? e = some v) :
    version e = .ok v := by
  rw [declaredVersion?] at h
  rw [version, h]

theorem version_of_not_declared (h : declaredVersion? e = none) :
    version e = newestOf ((e.childrenNamed "feature").filterMap (·.nonempty? "number")) := by
  rw [declaredVersion?] at h
  rw [version, h]
  rfl

theorem keep_feature (htag : x.tag = "feature") :
    keep (.registry versioned) x =
      if isForeign x then
        if versioned || (x.nonempty? "number").isNone then none else some (prune .leaf x)
      else some (prune .feature x) := by
  cases versioned <;> cases hforeign : isForeign x <;> cases hnumber : x.nonempty? "number" <;>
    simp [keep, Role.keeps, htag, hforeign, hnumber, Option.filter]

theorem version_prune (root : Element) :
    version (prune (.registry (declaredVersion? root).isSome) root) = version root := by
  have hnumbers (hnone : declaredVersion? root = none) :
      ((prune (.registry false) root).childrenNamed "feature").filterMap (·.nonempty? "number") =
        (root.childrenNamed "feature").filterMap (·.nonempty? "number") := by
    rw [childrenNamed_prune, List.filterMap_filterMap]
    refine List.filterMap_congr fun x hx ↦ ?_
    rw [keep_feature (tag_of_mem_childrenNamed hx)]
    cases hforeign : isForeign x <;> cases hnumber : x.nonempty? "number" <;> simp [hnumber]
  -- The numbers of features are looked at only if no macro holds the version.
  have hdeclared := declaredVersion?_prune (declaredVersion? root).isSome root
  cases hroot : declaredVersion? root with
  | some v =>
    rw [hroot] at hdeclared
    rw [version_of_declared hroot, version_of_declared hdeclared]
  | none =>
    rw [hroot, Option.isSome_none] at hdeclared
    rw [Option.isSome_none, version_of_not_declared hroot, version_of_not_declared hdeclared,
      hnumbers hroot]

/-! ## Enum blocks and constants -/

theorem integerAttribute_prune (e : Element) (attr text : String) :
    integerAttribute (prune r e) attr text = integerAttribute e attr text := by
  simp [integerAttribute]

theorem addConstant_prune (constants : Table String ApiConstant) (e : Element) :
    addConstant constants (prune r e) = addConstant constants e := by
  simp [addConstant]

theorem enumValue_prune (e : Element) (origin : String) :
    enumValue (prune r e) origin = enumValue e origin := by
  simp [enumValue, integerAttribute_prune]

theorem enumBlock_prune (e : Element) (name : String) :
    enumBlock (prune (.enumBlock false) e) name = enumBlock e name := by
  have hreads (x : Element) (hx : x.tag = "enum") :
      (Role.enumBlock false).reads x = some { role := .leaf, asks := true } := by
    simp [hx]
  simp only [enumBlock, get?_prune, integerAttribute_prune, enumValue_prune,
    childrenNamed_prune_of_reads_asks hreads, List.filter_map, List.foldlM_map, Function.comp_def,
    List.filter_filter, Bool.and_self]

theorem addBlock_prune (tables : EnumTables) (e : Element) :
    addBlock tables (prune (.enumBlock ((e.get? "name").getD "" == constantsBlock)) e) =
      addBlock tables e := by
  have hreads (x : Element) (hx : x.tag = "enum") :
      (Role.enumBlock true).reads x = some { role := .leaf } := by
    simp [hx]
  cases hname : (e.get? "name").getD "" == constantsBlock with
  | true =>
    simp only [addBlock, get?_prune, hname, childrenNamed_prune_of_reads hreads, List.foldlM_map,
      addConstant_prune, if_true]
  | false => simp only [addBlock, get?_prune, hname, enumBlock_prune, Bool.false_eq_true, if_false]

theorem enumTables_prune (root : Element) :
    enumTables (prune (.registry versioned) root) = enumTables root := by
  have hreads (x : Element) (hx : x.tag = "enums") : (Role.registry versioned).reads x =
      some { role := .enumBlock ((x.get? "name").getD "" == constantsBlock) } := by
    simp [hx]
  simp only [enumTables, childrenNamed_prune_of_reads hreads, List.foldlM_map, addBlock_prune]

/-! ## Commands -/

theorem add_prune (tables : CommandTables) (e : Element) :
    tables.add (prune (if (e.nonempty? "alias").isSome then .leaf else .command) e) =
      tables.add e := by
  cases halias : e.nonempty? "alias" with
  | some target => simp [CommandTables.add, halias]
  | none =>
    have hproto (x : Element) (hx : x.tag = "proto") :
        Role.command.reads x = some { role := fieldRole x } := by
      simp [hx]
    have hparam (x : Element) (hx : x.tag = "param") :
        Role.command.reads x = some { role := fieldRole x, asks := true } := by
      simp [hx]
    simp only [CommandTables.add, get?_prune, nonempty?_prune, halias, Option.isSome_none,
      Bool.false_eq_true, if_false, child?_prune hproto, askedFields_prune hparam]
    cases e.child? "proto" <;> simp [field_prune]

theorem commandTables_prune (root : Element) :
    commandTables (prune (.registry versioned) root) = commandTables root := by
  rw [commandTables, grandchildrenNamed_prune .commands fun x hx ↦ by simp [hx]]
  have hkeep (x : Element) (hx : x ∈ root.grandchildrenNamed "commands" "command") :
      keep .commands x = if supportsApi (x.get? "api") then
        some (prune (if (x.nonempty? "alias").isSome then .leaf else .command) x) else none :=
    keep_of_reads_asks (by simp [tag_of_mem_grandchildrenNamed hx])
  refine foldlM_keep hkeep (fun x tables ↦ add_prune tables x) (fun x tables h ↦ ?_) _
  simp [CommandTables.add, h]
  rfl

/-! ## Features and extensions -/

theorem get?_of_keep (h : keep r x = some y) (name : String) : y.get? name = x.get? name := by
  obtain ⟨role, -, rfl⟩ := Option.map_eq_some_iff.mp h
  exact get?_prune ..

theorem addEnum_prune (number? : Option Int) (origin : String) (c : Collected) (e : Element) :
    addEnum number? origin c (prune r e) = addEnum number? origin c e := by
  simp [addEnum, extensionValue, enumValue_prune, integerAttribute_prune]

theorem reads_requirement (h : x.tag = "type" ∨ x.tag = "command" ∨ x.tag = "enum") :
    Role.requirement.reads x = some { role := .leaf } := by
  obtain h | h | h := h <;> simp [h]

theorem addRequire_prune (number? : Option Int) (origin : String) (c : Collected) (e : Element) :
    addRequire number? origin c (prune .requirement e) = addRequire number? origin c e := by
  have htype (x : Element) (hx : x.tag = "type") := reads_requirement (Or.inl hx)
  have hcommand (x : Element) (hx : x.tag = "command") := reads_requirement (Or.inr (Or.inl hx))
  have henum (x : Element) (hx : x.tag = "enum") := reads_requirement (Or.inr (Or.inr hx))
  simp only [addRequire, childrenNamed_prune_of_reads htype, childrenNamed_prune_of_reads hcommand,
    childrenNamed_prune_of_reads henum, List.filterMap_map, List.foldlM_map, addEnum_prune,
    nonempty?_prune, Function.comp_def]

/-- Blocks of the API are collected, and whatever is kept of other blocks is left out again. -/
theorem collect_prune
    (h : ∀ x, x.tag = "require" → ¬isForeign x → keep r x = some (prune .requirement x))
    (e : Element) (origin : String) (number? : Option Int) (enums : Table String EnumDecl) :
    collect (prune r e) origin number? enums = collect e origin number? enums := by
  rw [collect, collect, List.foldlM_filter, List.foldlM_filter, childrenNamed_prune]
  refine Result.foldlM_filterMap_eq (fun x hx y hy c ↦ ?_) (fun x hx hnone c ↦ ?_) _
  · -- What is kept has the same `api` attribute, so it is collected if the block was.
    rw [get?_of_keep hy]
    split
    · rename_i hnative
      rw [h x (tag_of_mem_childrenNamed hx) (by simp [isForeign, hnative])] at hy
      cases hy
      exact addRequire_prune ..
    · rfl
  · refine if_neg fun hnative ↦ ?_
    rw [h x (tag_of_mem_childrenNamed hx) (by simp [isForeign, hnative])] at hnone
    cases hnone

theorem supportsApi_getD (value : Option String) :
    supportsApi (some (value.getD apiName)) = supportsApi value := by
  cases value with
  | none => decide
  | some v => rfl

theorem addFeature_prune (state : List Feature × Table String EnumDecl) (e : Element) :
    addFeature state (prune .feature e) = addFeature state e := by
  have hkeep (x : Element) (hx : x.tag = "require") (hnative : ¬isForeign x) :
      keep .feature x = some (prune .requirement x) := by
    simp [keep, Role.keeps, hx, hnative]
  simp only [addFeature, get?_prune, collect_prune hkeep]

theorem addFeature_of_isForeign (h : isForeign e) (state : List Feature × Table String EnumDecl) :
    addFeature state e = .ok state := by
  rw [isForeign] at h
  rw [addFeature, supportsApi_getD, if_pos h]

theorem features_prune (root : Element) (enums : Table String EnumDecl) :
    features (prune (.registry versioned) root) enums = features root enums := by
  rw [features, features, childrenNamed_prune]
  refine Result.foldlM_filterMap_eq (fun x hx y hy state ↦ ?_) (fun x hx hnone state ↦ ?_) _
  · by_cases hforeign : isForeign x
    · have hy : isForeign y := by rwa [isForeign, get?_of_keep hy]
      rw [addFeature_of_isForeign hforeign, addFeature_of_isForeign hy]
    · rw [keep_feature (tag_of_mem_childrenNamed hx), if_neg hforeign] at hy
      cases hy
      exact addFeature_prune ..
  · refine addFeature_of_isForeign (by_contra fun hforeign ↦ ?_) state
    simp [keep_feature (tag_of_mem_childrenNamed hx), hforeign] at hnone

theorem extensionVersion_eq (e : Element) : extensionVersion e =
    ((e.childrenNamed "require").filterMap versionText?).head?.elim (.ok 0) fun text ↦
      (Number.readCInteger Number.signRoom (text.getD "").toList).map (·.getD 0) := by
  have hfind : ((e.childrenNamed "require").filterMap versionText?).head? =
      ((e.grandchildrenNamed "require" "enum").find? isVersionValue).map (·.get? "value") := by
    rw [List.head?_filterMap, Element.grandchildrenNamed, List.find?_flatMap, List.map_findSome?]
    rfl
  rw [hfind, extensionVersion]
  split
  · rename_i v hv
    have hv : (e.grandchildrenNamed "require" "enum").find? isVersionValue = some v := hv
    rw [hv]
    rfl
  · rename_i hnone
    have hnone : (e.grandchildrenNamed "require" "enum").find? isVersionValue = none := hnone
    rw [hnone]
    rfl

theorem isVersionValue_prune (e : Element) : isVersionValue (prune r e) = isVersionValue e := by
  simp [isVersionValue]

theorem versionText?_requirement (block : Element) :
    versionText? (prune .requirement block) = versionText? block := by
  have henum (x : Element) (hx : x.tag = "enum") := reads_requirement (Or.inr (Or.inr hx))
  simp [versionText?, childrenNamed_prune_of_reads henum, Function.comp_def, isVersionValue_prune]

theorem versionText?_versionBlock (block : Element) :
    versionText? (prune .versionBlock block) = versionText? block := by
  have hkeep (x : Element) (hx : x ∈ block.childrenNamed "enum") :
      keep .versionBlock x = if isVersionValue x then some (prune .leaf x) else none := by
    cases hvalue : isVersionValue x <;>
      simp [keep, Role.keeps, tag_of_mem_childrenNamed hx, hvalue]
  have hfound : (fun x ↦ ((if isVersionValue x then some (prune .leaf x) else none).any
      isVersionValue)) = isVersionValue := by
    funext x
    cases hvalue : isVersionValue x <;> simp [isVersionValue_prune, hvalue]
  rw [versionText?, versionText?, childrenNamed_prune, List.filterMap_congr hkeep,
    List.find?_filterMap, hfound]
  cases hfind : (block.childrenNamed "enum").find? isVersionValue with
  | none => rfl
  | some v => simp [List.find?_some hfind]

theorem keep_require (htag : x.tag = "require") :
    keep .extension x =
      if isForeign x then
        if (versionText? x).isSome then some (prune .versionBlock x) else none
      else some (prune .requirement x) := by
  cases hforeign : isForeign x <;> cases hversion : versionText? x <;>
    simp [keep, Role.keeps, htag, hforeign, hversion]

theorem versionText?_keep (htag : x.tag = "require") :
    (keep .extension x).bind versionText? = versionText? x := by
  rw [keep_require htag]
  split_ifs with hforeign hversion
  · exact versionText?_versionBlock x
  · exact (Option.not_isSome_iff_eq_none.mp hversion).symm
  · exact versionText?_requirement x

theorem extensionVersion_prune (e : Element) :
    extensionVersion (prune .extension e) = extensionVersion e := by
  rw [extensionVersion_eq, extensionVersion_eq, childrenNamed_prune, List.filterMap_filterMap,
    List.filterMap_congr fun x hx ↦ versionText?_keep (tag_of_mem_childrenNamed hx)]

theorem isSupported_prune (e : Element) : isSupported (prune r e) = isSupported e := by
  simp [isSupported]

theorem addExtension_prune (state : List Extension × Table String EnumDecl) (e : Element) :
    addExtension state (prune .extension e) = addExtension state e := by
  have hkeep (x : Element) (hx : x.tag = "require") (hnative : ¬isForeign x) :
      keep .extension x = some (prune .requirement x) := by
    rw [keep_require hx, if_neg hnative]
  simp only [addExtension, isSupported_prune, get?_prune, nonempty?_prune, integerAttribute_prune,
    collect_prune hkeep, extensionVersion_prune]

theorem extensions_prune (root : Element) (enums : Table String EnumDecl) :
    extensions (prune (.registry versioned) root) enums = extensions root enums := by
  rw [extensions, extensions, grandchildrenNamed_prune .extensions fun x hx ↦ by simp [hx]]
  have hkeep (x : Element) (hx : x ∈ root.grandchildrenNamed "extensions" "extension") :
      keep .extensions x = if isSupported x then some (prune .extension x) else none := by
    cases hsupported : isSupported x <;>
      simp [keep, Role.keeps, tag_of_mem_grandchildrenNamed hx, hsupported]
  exact foldlM_keep hkeep (fun x state ↦ addExtension_prune state x)
    (fun x state h ↦ by simp [addExtension, h]) _

/-! ## The registry -/

/-- The role of the root of a document. -/
def rootRole (root : Element) : Role := .registry (declaredVersion? root).isSome

theorem tags_prune (root : Element) :
    ((prune (.registry versioned) root).grandchildrenNamed "tags" "tag").filterMap
        (·.nonempty? "name") =
      (root.grandchildrenNamed "tags" "tag").filterMap (·.nonempty? "name") := by
  rw [grandchildrenNamed_prune .tags fun x hx ↦ by simp [hx], List.filterMap_filterMap]
  refine List.filterMap_congr fun x hx ↦ ?_
  have hkeep : keep .tags x = some (prune .leaf x) :=
    keep_of_reads (by simp [tag_of_mem_grandchildrenNamed hx])
  rw [hkeep]
  exact nonempty?_prune ..

/-- Loading reads no more of a document than pruning keeps. -/
theorem ofElement_prune (root : Element) :
    Document.ofElement (prune (rootRole root) root) = Document.ofElement root := by
  rw [rootRole, Document.ofElement, Document.ofElement, tag_prune]
  simp only [tags_prune, types_prune, enumTables_prune, commandTables_prune, features_prune,
    extensions_prune, version_prune]

end XrBindings.Load
