import XrBindings.Proofs.Bindings.Context
import XrBindings.Proofs.Bindings.Declaration
import XrBindings.Proofs.Command.ResultPartition

/-!
# What the bindings declare in the file

Constants, types, checks, pointers to commands and the tables share one scope, and each kind of them
is named by a rule of its own. Here the declarations are read back from the lines: they are those of
the items in scope, each once, and the name of each is the one that its rule gives. So names are
distinct exactly if the rules give different items in scope different names. Only pointers make sure
of that themselves, and only with regard to types and to other pointers: what they give way to keeps
the name, and is not in general a pointer of the same type.
-/

namespace XrBindings

open XrBindings.Naming XrBindings.Zig

/-- What can be declared in the file. -/
inductive ScopeItem where
  | constant (name : String)
  | makeVersion
  | currentVersion
  | type (decl : TypeDecl)
  /-- Another spelling, and the declared one. -/
  | typeAlias (spelling declared : TypeName)
  | errorSet (partition : ResultPartition)
  | check (partition : ResultPartition)
  | pointer (command : CommandDecl)
  | dispatch
  | extensionInfo
  | extensionTable
  deriving DecidableEq

namespace Context

/-- A spelling of a type in Zig. -/
def spelledName (c : Context) (spelling : TypeName) : Result String := do
  c.renderer.typeName (← required spelling)

/-- The name that the rule for its kind gives an item. -/
def itemName (c : Context) : ScopeItem → Result String
  | .constant name => c.renderer.constantName name
  | .makeVersion => .ok "makeVersion"
  | .currentVersion => .ok "CURRENT_API_VERSION"
  | .type decl => c.declaredName decl.name
  | .typeAlias spelling _ => c.spelledName spelling
  | .errorSet p => c.errorSetName p.enumName
  | .check p => c.checkName p.enumName
  | .pointer command => c.renderer.commandPointerName command.name
  | .dispatch => .ok "Dispatch"
  | .extensionInfo => .ok "ExtensionInfo"
  | .extensionTable => .ok "extension_info"

/-- The version of the registry has three numbers. -/
def hasNumbers (c : Context) : Bool :=
  let parts := Text.splitAtChar '.' c.document.version
  parts.length == 3 && parts.all Text.isDigits

/-- No type takes the name of the command's pointer, and the command is the first with it. -/
def OwnsPointer (c : Context) (command : CommandDecl) : Prop :=
  (∀ decl ∈ c.declaredTypes,
    c.declaredName decl.name ≠ c.renderer.commandPointerName command.name) ∧
  ∃ before : List CommandDecl,
    before ++ [command] <+: c.document.commands.values ∧ ∀ other ∈ before,
    c.renderer.commandPointerName other.name ≠ c.renderer.commandPointerName command.name

/-- The bindings declare the item in the file. -/
def InScope (c : Context) : ScopeItem → Prop
  | .constant name => name ∈ c.document.apiConstants.keys
  | .makeVersion => c.document.hasType versionType = true
  | .currentVersion => c.document.hasType versionType = true ∧ c.hasNumbers = true
  | .type decl => decl ∈ c.declaredTypes
  | .typeAlias spelling declared => (spelling, declared) ∈ c.graph.aliases ∧
      c.spelledName spelling ≠ c.spelledName declared
  | .errorSet p | .check p => p ∈ c.partitions.values
  | .pointer command => c.OwnsPointer command
  | .dispatch => True
  | .extensionInfo | .extensionTable => c.document.extensions ≠ []

/-- The item is a pointer to functions of this type. -/
def HasSignature (c : Context) : ScopeItem → String → Prop
  | .type decl, type => c.DeclaresFunction decl type
  | .pointer command, type => c.functionType command.returns command.params = .ok type
  | _, _ => False

/-- A declaration is that of an item: the name is that of the item, and what stands behind it is a
function type only if the item is a pointer to such functions. -/
structure Declares (c : Context) (item : ScopeItem) (e : String × String) : Prop where
  itemName_eq : c.itemName item = .ok e.1
  signature_iff : ∀ type, IsPointerText type →
    (e.2 = " = " ++ type ++ ";" ↔ c.HasSignature item type)

/-- The lines declare the items, in their order. -/
def Reads (c : Context) (items : List ScopeItem) (lines : List String) : Prop :=
  List.Forall₂ c.Declares items (declarations lines)

variable {c : Context} {items items' : List ScopeItem} {lines lines' : List String}
  {item : ScopeItem} {name : String}

/-! ## Lines and items -/

theorem reads_of_isInner (h : ∀ line ∈ lines, IsInner line) : c.Reads [] lines := by
  rw [Reads, declarations_of_isInner h]
  exact .nil

theorem Reads.append (h : c.Reads items lines) (h' : c.Reads items' lines') :
    c.Reads (items ++ items') (lines ++ lines') := by
  rw [Reads, declarations_append]
  exact List.rel_append h h'

theorem reads_flatten {α : Type} {f : α → List ScopeItem} {xs : List α} {parts : List (List String)}
    (h : List.Forall₂ (fun x lines ↦ c.Reads (f x) lines) xs parts) :
    c.Reads (xs.flatMap f) parts.flatten := by
  induction h with
  | nil => exact .nil
  | cons hx _ ih => exact hx.append ih

theorem reads_map {α : Type} {f : α → ScopeItem} {xs : List α}
    (h : List.Forall₂ (fun x line ↦ c.Reads [f x] [line]) xs lines) : c.Reads (xs.map f) lines := by
  induction h with
  | nil => exact .nil
  | cons hx _ ih => exact hx.append ih

theorem Reads.exists_item (h : c.Reads items lines) {e : String × String}
    (he : e ∈ declarations lines) : ∃ item ∈ items, c.Declares item e := by
  rw [Reads] at h
  generalize declarations lines = entries at *
  induction h with
  | nil => exact absurd he List.not_mem_nil
  | cons hitem _ ih =>
    obtain rfl | he := List.mem_cons.mp he
    · exact ⟨_, List.mem_cons_self, hitem⟩
    · obtain ⟨item, hmem, hdeclares⟩ := ih he
      exact ⟨item, List.mem_cons_of_mem _ hmem, hdeclares⟩

theorem Reads.exists_declaration (h : c.Reads items lines) (hitem : item ∈ items) :
    ∃ e ∈ declarations lines, c.Declares item e := by
  rw [Reads] at h
  generalize declarations lines = entries at *
  induction h with
  | nil => exact absurd hitem List.not_mem_nil
  | cons hfirst _ ih =>
    obtain rfl | hitem := List.mem_cons.mp hitem
    · exact ⟨_, List.mem_cons_self, hfirst⟩
    · obtain ⟨e, hmem, hdeclares⟩ := ih hitem
      exact ⟨e, List.mem_cons_of_mem _ hmem, hdeclares⟩

theorem reads_of_declaresPlainly (h : DeclaresPlainly lines name)
    (hname : c.itemName item = .ok name) (hitem : ∀ type, ¬c.HasSignature item type) :
    c.Reads [item] lines := by
  obtain ⟨text, htext, hplain⟩ := h
  rw [Reads, htext]
  refine .cons ⟨hname, fun type htype ↦ iff_of_false ?_ (hitem type)⟩ .nil
  rintro rfl
  exact hplain (givesPointer_value.mpr htype)

/-! ## The parts of the bindings -/

theorem reads_fileHeader {version registry : String} (h : fileHeader version registry = .ok lines) :
    c.Reads [] (lines ++ ["", "const std = @import(\"std\");"]) := by
  rw [fileHeader] at h
  split at h
  · cases h
  · rw [← Except.ok.inj h]
    refine reads_of_isInner ?_
    have hborder : IsInner headerBorder := isInner_ofList (by simp)
    simp only [List.cons_append, List.nil_append, List.mem_cons, List.not_mem_nil, or_false,
      forall_eq_or_imp, forall_eq, hborder, ne_eq, String.append_eq_empty_iff, String.reduceEq,
      false_and, not_false_eq_true, isInner_append, true_and]
    and_intros <;> exact isInner_ofList (by simp)

/-! ### Constants -/

theorem not_isPointerText_constantText {value : ApiConstant} {text : String}
    (h : c.constantText value = .ok text) : ¬IsPointerText text := by
  cases value with
  | sizeOf typeName =>
    obtain ⟨type, -, rfl⟩ := Result.map_eq_ok_iff.mp h
    simp [IsPointerText]
  | real x =>
    rw [← Except.ok.inj h]
    exact Number.RealText.not_isPointerText_print x
  | integer n =>
    obtain ⟨-, rfl⟩ := Number.decimalText_eq_ok_iff.mp h
    exact Number.not_isPointerText_toString n

theorem reads_constantsSource (h : c.constantsSource = .ok lines) :
    c.Reads (c.document.apiConstants.keys.map .constant) lines := by
  rw [Table.keys, List.map_map]
  refine reads_map ((Result.mapM_eq_ok_iff.mp h).imp fun e line hline ↦ ?_)
  obtain ⟨text, htext, hline⟩ := Result.bind_eq_ok_iff.mp hline
  obtain ⟨rendered, hrendered, hline⟩ := Result.bind_eq_ok_iff.mp hline
  obtain rfl := Result.pure_eq_ok_iff.mp hline
  obtain ⟨body, rfl⟩ := Naming.Renderer.exists_of_render hrendered
  have hplain := declaresPlainly_constantLine (isName_writeIdentifier body)
    (not_isPointerText_constantText htext)
  exact reads_of_declaresPlainly hplain hrendered fun _ ↦ id

/-! ### The version -/

/-- What the bindings declare about versions. -/
def versionItems (c : Context) : List ScopeItem :=
  if !c.document.hasType versionType then []
  else [ScopeItem.makeVersion] ++ if c.hasNumbers then [ScopeItem.currentVersion] else []

theorem reads_versionSource (h : c.versionSource = .ok lines) : c.Reads c.versionItems lines := by
  rw [versionSource] at h
  rw [versionItems]
  split at h
  · next hnone =>
    rw [if_pos hnone, ← Except.ok.inj h]
    exact .nil
  · next hsome =>
    obtain ⟨version, -, h⟩ := Result.bind_eq_ok_iff.mp h
    obtain rfl := Result.pure_eq_ok_iff.mp h
    rw [if_neg hsome]
    have hopening : DeclaresPlainly
        ["pub fn makeVersion(major: u16, minor: u16, patch: u32) " ++ version ++ " \x7b"]
        "makeVersion" :=
      declaresPlainly_function (isName_of_forall (by simp))
        ("(major: u16, minor: u16, patch: u32) " ++ (version ++ " \x7b"))
        (by simp only [← String.append_assoc]; rfl) (by simp [EndsName]) (by simp [GivesPointer])
    have hinner : ∀ line ∈ ["    return (@as(u64, major) << 48) | (@as(u64, minor) << 32) | patch;",
        "\x7d"], IsInner line := by
      rw [List.forall_mem_cons, List.forall_mem_singleton]
      exact ⟨isInner_ofList (by simp), isInner_ofList (by simp)⟩
    refine (reads_of_declaresPlainly (hopening.append hinner) rfl fun _ ↦ id).append ?_
    by_cases hnumbers : c.hasNumbers = true
    · rw [if_pos hnumbers]
      rw [hasNumbers] at hnumbers
      rw [if_pos hnumbers]
      have hcurrent : DeclaresPlainly
          [constantLine "CURRENT_API_VERSION" ("makeVersion(" ++
            Text.joinWith ", " (Text.splitAtChar '.' c.document.version) ++ ")")]
          "CURRENT_API_VERSION" :=
        declaresPlainly_constantLine (isName_of_forall (by simp)) (by simp [IsPointerText])
      have hempty : c.Reads [] [""] := reads_of_isInner (by simp [IsInner])
      exact hempty.append (reads_of_declaresPlainly hcurrent rfl fun _ ↦ id)
    · rw [if_neg hnumbers]
      rw [hasNumbers] at hnumbers
      rw [if_neg hnumbers]
      exact .nil

/-! ### Types -/

theorem reads_declarationSource {decl : TypeDecl} (hforeign : decl.isForeign = false)
    (h : c.declarationSource decl = .ok lines) : c.Reads [.type decl] lines := by
  obtain ⟨hforeign', -⟩ | ⟨-, name, text, hname, hdeclares, hsignature⟩ :=
    declarations_declarationSource h
  · rw [hforeign] at hforeign'
    exact absurd hforeign' Bool.false_ne_true
  · rw [Reads, hdeclares]
    exact .cons ⟨hname, hsignature⟩ .nil

theorem reads_typeSections {types : List (List String)} {taken : List String}
    (h : c.typeSections = .ok (types, taken)) :
    c.Reads (c.declaredTypes.map .type) types.flatten := by
  have hall := Result.mapM_eq_ok_iff.mp (typeSections_eq_ok h).1
  have hforeign : ∀ decl ∈ c.declaredTypes, decl.isForeign = false :=
    fun decl hdecl ↦ (mem_declaredTypes_iff.mp hdecl).2
  rw [List.map_eq_flatMap]
  refine reads_flatten (((List.forall₂_and_left _ _).mpr ⟨hforeign, hall⟩).imp ?_)
  rintro decl lines ⟨hforeign, hlines⟩
  exact reads_declarationSource hforeign hlines

/-- The lines for another spelling. -/
def aliasLines (c : Context) (e : TypeName × TypeName) : Result (List String) := do
  let name ← c.spelledName e.1
  let declared ← c.spelledName e.2
  return if name == declared then [] else [constantLine name declared]

theorem aliasSource_eq_ok (h : c.aliasSource = .ok lines) :
    ∃ parts, c.graph.aliases.mapM c.aliasLines = .ok parts ∧ lines = parts.flatten := by
  obtain ⟨parts, hparts, h⟩ := Result.bind_eq_ok_iff.mp h
  refine ⟨parts, ?_, (Result.pure_eq_ok_iff.mp h).symm⟩
  rw [Result.mapM_eq_ok_iff] at hparts ⊢
  refine hparts.imp fun e part hpart ↦ ?_
  simpa only [aliasLines, spelledName, bind_assoc] using hpart

theorem aliasLines_eq_ok {e : TypeName × TypeName} (h : c.aliasLines e = .ok lines) :
    ∃ name declared, c.spelledName e.1 = .ok name ∧ c.spelledName e.2 = .ok declared ∧
      lines = if name = declared then [] else [constantLine name declared] := by
  obtain ⟨name, hname, h⟩ := Result.bind_eq_ok_iff.mp h
  obtain ⟨declared, hdeclared, h⟩ := Result.bind_eq_ok_iff.mp h
  obtain rfl := Result.pure_eq_ok_iff.mp h
  exact ⟨name, declared, hname, hdeclared, by simp only [beq_iff_eq]⟩

theorem exists_of_spelledName {spelling : TypeName} (h : c.spelledName spelling = .ok name) :
    ∃ body, name = writeIdentifier body := by
  obtain ⟨s, -, h⟩ := Result.bind_eq_ok_iff.mp h
  exact Naming.Renderer.exists_of_typeName h

/-- What is declared for another spelling, which may be the same in Zig. -/
def aliasItem? (c : Context) (e : TypeName × TypeName) : Option ScopeItem :=
  if c.spelledName e.1 = c.spelledName e.2 then none else some (.typeAlias e.1 e.2)

theorem aliasItem?_eq_some_iff {e : TypeName × TypeName} :
    c.aliasItem? e = some item ↔
      c.spelledName e.1 ≠ c.spelledName e.2 ∧ item = .typeAlias e.1 e.2 := by
  rw [aliasItem?]
  split <;> simp [*, eq_comm]

theorem reads_aliasSource (h : c.aliasSource = .ok lines) :
    c.Reads (c.graph.aliases.filterMap c.aliasItem?) lines := by
  obtain ⟨parts, hparts, rfl⟩ := aliasSource_eq_ok h
  rw [List.filterMap_eq_flatMap_toList]
  refine reads_flatten ((Result.mapM_eq_ok_iff.mp hparts).imp fun e part hpart ↦ ?_)
  obtain ⟨name, declared, hname, hdeclared, rfl⟩ := aliasLines_eq_ok hpart
  simp only [aliasItem?, hname, hdeclared, Except.ok.injEq]
  split
  · exact .nil
  · obtain ⟨body, rfl⟩ := exists_of_spelledName hname
    obtain ⟨body', rfl⟩ := exists_of_spelledName hdeclared
    exact reads_of_declaresPlainly (declaresPlainly_constantLine (isName_writeIdentifier body)
      (not_isPointerText_writeIdentifier body')) hname fun _ ↦ id

/-! ### Checks -/

theorem isName_of_errorSetName {enumName : String} (h : c.errorSetName enumName = .ok name) :
    IsName name := by
  obtain ⟨declared, hdeclared, rfl⟩ := Result.map_eq_ok_iff.mp h
  exact (c.isName_of_declaredName hdeclared).append (isName_of_forall (by simp))

theorem isName_of_checkName {enumName : String} (h : c.checkName enumName = .ok name) :
    IsName name := by
  obtain ⟨declared, hdeclared, rfl⟩ := Result.map_eq_ok_iff.mp h
  exact IsName.append (isName_of_forall (by simp)) (c.isName_of_declaredName hdeclared)

theorem reads_resultCheckSource {p : ResultPartition} (h : c.resultCheckSource p = .ok lines) :
    c.Reads [.errorSet p, .check p] lines := by
  obtain ⟨enumType, -, h⟩ := Result.bind_eq_ok_iff.mp h
  cases hdecl : c.document.enums.get? p.enumName with
  | none =>
    rw [hdecl] at h
    cases h
  | some decl =>
    rw [hdecl] at h
    obtain ⟨_, -, h⟩ := Result.bind_eq_ok_iff.mp h
    obtain ⟨members, -, h⟩ := Result.bind_eq_ok_iff.mp h
    obtain ⟨errors, -, h⟩ := Result.bind_eq_ok_iff.mp h
    obtain ⟨errorSet, herrorSet, h⟩ := Result.bind_eq_ok_iff.mp h
    obtain ⟨check, hcheck, h⟩ := Result.bind_eq_ok_iff.mp h
    obtain ⟨arms, harms, h⟩ := Result.bind_eq_ok_iff.mp h
    obtain rfl := Result.pure_eq_ok_iff.mp h
    have hopening : DeclaresPlainly ["pub const " ++ errorSet ++ " = error\x7b"] errorSet :=
      declaresPlainly_opening (isName_of_errorSetName herrorSet) " = error\x7b" rfl
        (by simp [EndsName]) (by simp [GivesPointer])
    have hcheckOpening : DeclaresPlainly
        ["pub fn " ++ check ++ "(result: " ++ enumType ++ ") " ++ errorSet ++ "!void \x7b"] check :=
      declaresPlainly_function (isName_of_checkName hcheck)
        ("(result: " ++ (enumType ++ (") " ++ (errorSet ++ "!void \x7b"))))
        (by simp only [String.append_assoc]) (by simp [EndsName]) (by simp [GivesPointer])
    have hends : c.Reads [] ["\x7d;", ""] := reads_of_isInner (by simp [IsInner])
    have hswitch : c.Reads [] ["    switch (result) \x7b"] := reads_of_isInner (by simp [IsInner])
    have hset : c.Reads [.errorSet p] (["pub const " ++ errorSet ++ " = error\x7b"] ++
        errors.map fun e ↦ "    " ++ e ++ ",") := by
      refine reads_of_declaresPlainly (hopening.append ?_) herrorSet fun _ ↦ id
      simp only [List.forall_mem_map]
      simp [IsInner]
    have hfunction : c.Reads [.check p]
        ["pub fn " ++ check ++ "(result: " ++ enumType ++ ") " ++ errorSet ++ "!void \x7b"] :=
      reads_of_declaresPlainly hcheckOpening hcheck fun _ ↦ id
    refine (((hset.append ((hends.append hfunction).append hswitch)).append
      (reads_of_isInner ?_)).append (reads_of_isInner ?_)).append (reads_of_isInner ?_)
    · split
      · simp
      · simp only [List.forall_mem_append, List.forall_mem_map]
        simp [IsInner]
    · intro line hline
      obtain ⟨f, -, hf⟩ := (Result.mem_of_mapM harms).mp hline
      obtain ⟨error, -, hf⟩ := Result.bind_eq_ok_iff.mp hf
      obtain rfl := Result.pure_eq_ok_iff.mp hf
      simp [IsInner]
    · simp [IsInner]

/-! ### Commands -/

/-- The first of `commands` with the name of its pointer, which is not taken either. -/
def FirstPointer (c : Context) (taken : List String) (commands : List CommandDecl)
    (command : CommandDecl) : Prop :=
  (∀ name ∈ taken, c.renderer.commandPointerName command.name ≠ .ok name) ∧
    ∃ before : List CommandDecl, before ++ [command] <+: commands ∧ ∀ other ∈ before,
      c.renderer.commandPointerName other.name ≠ c.renderer.commandPointerName command.name

/-- Pointers are declared for the commands that come first with their names, and afterwards the
names of all pointers are taken. -/
structure PointersRead (c : Context) (taken : List String) (commands own : List CommandDecl)
    (lines taken' : List String) : Prop where
  reads : c.Reads (own.map .pointer) lines
  nodup : own.Nodup
  mem_iff : ∀ command, command ∈ own ↔ c.FirstPointer taken commands command
  taken_eq : taken' = taken ++ (declarations lines).map Prod.fst
  mem_taken : ∀ command ∈ commands, ∃ name ∈ taken',
    c.renderer.commandPointerName command.name = .ok name

theorem FirstPointer.mono {taken : List String} {commands more : List CommandDecl}
    {command : CommandDecl} (h : c.FirstPointer taken commands command) :
    c.FirstPointer taken (commands ++ more) command := by
  obtain ⟨hfree, before, hprefix, hbefore⟩ := h
  exact ⟨hfree, before, hprefix.trans (List.prefix_append _ _), hbefore⟩

/-- One more command is first itself if its name is still free, and changes nothing for others. -/
theorem firstPointer_concat_iff {taken : List String} {commands : List CommandDecl}
    {last command : CommandDecl} :
    c.FirstPointer taken (commands ++ [last]) command ↔ c.FirstPointer taken commands command ∨
      command = last ∧ (∀ name ∈ taken, c.renderer.commandPointerName last.name ≠ .ok name) ∧
        ∀ other ∈ commands,
          c.renderer.commandPointerName other.name ≠ c.renderer.commandPointerName last.name := by
  constructor
  · rintro ⟨hfree, before, hprefix, hbefore⟩
    obtain heq | hprefix := List.prefix_concat_iff.mp hprefix
    · obtain ⟨rfl, hlast⟩ := List.append_inj' heq rfl
      obtain rfl := List.head_eq_of_cons_eq hlast
      exact Or.inr ⟨rfl, hfree, hbefore⟩
    · exact Or.inl ⟨hfree, before, hprefix, hbefore⟩
  · rintro (h | ⟨rfl, hfree, hothers⟩)
    · exact h.mono
    · exact ⟨hfree, commands, List.prefix_rfl, hothers⟩

theorem pointersRead_nil (taken : List String) : c.PointersRead taken [] [] [] taken where
  reads := .nil
  nodup := .nil
  mem_iff command := by simp [FirstPointer]
  taken_eq := by simp [declarations]
  mem_taken := by simp

theorem isName_of_commandPointerName {raw : String}
    (h : c.renderer.commandPointerName raw = .ok name) : IsName name := by
  obtain ⟨body, rfl⟩ := Naming.Renderer.exists_of_commandPointerName h
  exact isName_writeIdentifier body

namespace PointersRead

variable {taken taken' : List String} {commands own : List CommandDecl} {command : CommandDecl}
  {type : String}

theorem mem_taken_iff (h : c.PointersRead taken commands own lines taken') :
    name ∈ taken' ↔ name ∈ taken ∨
      ∃ other ∈ commands, c.renderer.commandPointerName other.name = .ok name := by
  constructor
  · intro hname
    rw [h.taken_eq, List.mem_append, List.mem_map] at hname
    obtain hname | ⟨e, he, rfl⟩ := hname
    · exact Or.inl hname
    · obtain ⟨item, hitem, hdeclares⟩ := h.reads.exists_item he
      obtain ⟨other, hother, rfl⟩ := List.mem_map.mp hitem
      obtain ⟨-, before, hprefix, -⟩ := (h.mem_iff other).mp hother
      exact Or.inr ⟨other, hprefix.subset (by simp), hdeclares.itemName_eq⟩
  · rintro (hname | ⟨other, hother, hname⟩)
    · rw [h.taken_eq]
      exact List.mem_append_left _ hname
    · obtain ⟨name', hname', hother⟩ := h.mem_taken other hother
      rw [hname, Except.ok.injEq] at hother
      exact hother ▸ hname'

theorem skip (h : c.PointersRead taken commands own lines taken')
    (hname : c.renderer.commandPointerName command.name = .ok name) (htaken : name ∈ taken') :
    c.PointersRead taken (commands ++ [command]) own lines taken' where
  reads := h.reads
  nodup := h.nodup
  mem_iff other := by
    rw [h.mem_iff, firstPointer_concat_iff, or_iff_left]
    rintro ⟨-, hfree, hothers⟩
    obtain htaken | ⟨other, hother, hsame⟩ := h.mem_taken_iff.mp htaken
    · exact hfree name htaken hname
    · exact hothers other hother (hsame.trans hname.symm)
  taken_eq := h.taken_eq
  mem_taken := by
    rw [List.forall_mem_append, List.forall_mem_singleton]
    exact ⟨h.mem_taken, name, htaken, hname⟩

theorem add (h : c.PointersRead taken commands own lines taken')
    (hname : c.renderer.commandPointerName command.name = .ok name) (hnew : name ∉ taken')
    (htype : c.functionType command.returns command.params = .ok type) :
    c.PointersRead taken (commands ++ [command]) (own ++ [command])
      (lines ++ [constantLine name type]) (taken' ++ [name]) where
  reads := by
    rw [List.map_append]
    refine h.reads.append ?_
    rw [Reads, declarations_constantLine (isName_of_commandPointerName hname)]
    refine .cons ⟨hname, fun type' _ ↦ value_inj.trans ?_⟩ .nil
    rw [HasSignature, htype, Except.ok.injEq]
  nodup := by
    refine List.nodup_append.mpr ⟨h.nodup, List.nodup_singleton _, ?_⟩
    rintro other hother _ hcommand rfl
    rw [List.mem_singleton] at hcommand
    subst hcommand
    obtain ⟨-, before, hprefix, -⟩ := (h.mem_iff _).mp hother
    exact hnew (h.mem_taken_iff.mpr (Or.inr ⟨_, hprefix.subset (by simp), hname⟩))
  mem_iff other := by
    have hfree : (∀ name' ∈ taken, c.renderer.commandPointerName command.name ≠ .ok name') ∧
        ∀ other ∈ commands, c.renderer.commandPointerName other.name ≠
          c.renderer.commandPointerName command.name := by
      rw [hname]
      refine ⟨fun name' hname' hsame ↦ ?_, fun other hother hsame ↦ ?_⟩
      · obtain rfl := Except.ok.inj hsame
        exact hnew (h.mem_taken_iff.mpr (Or.inl hname'))
      · exact hnew (h.mem_taken_iff.mpr (Or.inr ⟨other, hother, hsame⟩))
    rw [List.mem_append, List.mem_singleton, h.mem_iff, firstPointer_concat_iff]
    exact or_congr_right (iff_self_and.mpr fun _ ↦ hfree)
  taken_eq := by
    rw [h.taken_eq, declarations_append, List.map_append, List.append_assoc,
      declarations_constantLine (isName_of_commandPointerName hname), List.map_singleton]
  mem_taken := by
    rw [List.forall_mem_append, List.forall_mem_singleton]
    refine ⟨fun other hother ↦ ?_, name, by simp, hname⟩
    obtain ⟨name', hname', hother⟩ := h.mem_taken other hother
    exact ⟨name', List.mem_append_left _ hname', hother⟩

end PointersRead

theorem pointersRead_commandPointers {taken taken' : List String}
    (h : c.commandPointers taken = .ok (lines, taken')) :
    ∃ own, c.PointersRead taken c.document.commands.values own lines taken' := by
  refine Result.foldlM_prefix_induction (fun before state ↦
    ∃ own, c.PointersRead taken before own state.1 state.2) h ⟨[], pointersRead_nil taken⟩ ?_
  rintro before command ⟨lines, taken'⟩ state ⟨own, hread⟩ hstep
  obtain ⟨name, hname, hstep⟩ := Result.bind_eq_ok_iff.mp hstep
  split at hstep
  · next htaken =>
    rw [← Result.pure_eq_ok_iff.mp hstep]
    exact ⟨own, hread.skip hname (List.contains_iff_mem.mp htaken)⟩
  · next hnew =>
    obtain ⟨type, htype, hstep⟩ := Result.bind_eq_ok_iff.mp hstep
    rw [← Result.pure_eq_ok_iff.mp hstep]
    exact ⟨_, hread.add hname (mt List.contains_iff_mem.mpr hnew) htype⟩

theorem isInner_of_loadFunction (h : c.loadFunction = .ok lines) :
    ∀ line ∈ lines, IsInner line := by
  rw [loadFunction] at h
  split at h
  · rw [← Except.ok.inj h]
    simp
  · obtain ⟨handle, -, h⟩ := Result.bind_eq_ok_iff.mp h
    obtain ⟨finder, -, h⟩ := Result.bind_eq_ok_iff.mp h
    obtain ⟨function, -, h⟩ := Result.bind_eq_ok_iff.mp h
    obtain ⟨success, -, h⟩ := Result.bind_eq_ok_iff.mp h
    rw [← Result.pure_eq_ok_iff.mp h]
    simp only [List.mem_cons, List.not_mem_nil, or_false, forall_eq_or_imp, forall_eq, ne_eq,
      String.append_eq_empty_iff, String.reduceEq, false_and, not_false_eq_true, isInner_append]
    and_intros <;> exact isInner_ofList (by simp)

theorem isInner_of_wrapperSource {s : WrapperSignature} (h : c.wrapperSource s = .ok lines) :
    ∀ line ∈ lines, IsInner line := by
  obtain ⟨parts, -, h⟩ := Result.bind_eq_ok_iff.mp h
  obtain ⟨outputs, -, h⟩ := Result.bind_eq_ok_iff.mp h
  obtain ⟨⟨returnType, statements⟩, -, h⟩ := Result.bind_eq_ok_iff.mp h
  obtain ⟨name, -, h⟩ := Result.bind_eq_ok_iff.mp h
  rw [← Result.pure_eq_ok_iff.mp h]
  simp only [List.forall_mem_append, List.forall_mem_cons, List.forall_mem_map]
  simp [IsInner]

theorem isInner_of_wrapperAlias {spelling : String} (h : c.wrapperAlias spelling = .ok lines) :
    ∀ line ∈ lines, IsInner line := by
  rw [wrapperAlias] at h
  split at h
  · rw [← Except.ok.inj h]
    simp
  · obtain ⟨name, -, h⟩ := Result.bind_eq_ok_iff.mp h
    obtain ⟨declared, -, h⟩ := Result.bind_eq_ok_iff.mp h
    rw [← Result.pure_eq_ok_iff.mp h]
    split <;> simp [IsInner]

theorem isInner_of_pointerMember {command : CommandDecl} {line : String}
    (h : c.pointerMember command = .ok line) : IsInner line := by
  obtain ⟨pointer, -, h⟩ := Result.bind_eq_ok_iff.mp h
  obtain rfl := Result.pure_eq_ok_iff.mp h
  simp [IsInner]

theorem reads_dispatchSource {signatures : List WrapperSignature}
    (h : c.dispatchSource signatures = .ok lines) : c.Reads [.dispatch] lines := by
  obtain ⟨members, hmembers, h⟩ := Result.bind_eq_ok_iff.mp h
  obtain ⟨load, hload, h⟩ := Result.bind_eq_ok_iff.mp h
  obtain ⟨wrappers, hwrappers, h⟩ := Result.bind_eq_ok_iff.mp h
  obtain ⟨aliases, haliases, h⟩ := Result.bind_eq_ok_iff.mp h
  obtain rfl := Result.pure_eq_ok_iff.mp h
  have hopening : DeclaresPlainly ["pub const Dispatch = struct \x7b"] "Dispatch" :=
    declaresPlainly_opening (isName_of_forall (by simp)) " = struct \x7b" rfl (by simp [EndsName])
      (by simp [GivesPointer])
  refine reads_of_declaresPlainly
    (((((hopening.append ?_).append ?_).append ?_).append ?_).append ?_) rfl fun _ ↦ id
  · intro line hline
    obtain ⟨command, -, hcommand⟩ := (Result.mem_of_mapM hmembers).mp hline
    exact isInner_of_pointerMember hcommand
  · exact isInner_of_loadFunction hload
  · intro line hline
    obtain ⟨wrapper, hwrapper, hline⟩ := List.mem_flatten.mp hline
    obtain ⟨s, -, hs⟩ := (Result.mem_of_mapM hwrappers).mp hwrapper
    obtain ⟨inner, hinner, hs⟩ := Result.bind_eq_ok_iff.mp hs
    obtain rfl := Result.pure_eq_ok_iff.mp hs
    obtain rfl | hline := List.mem_cons.mp hline
    · simp [IsInner]
    · exact isInner_of_wrapperSource hinner line hline
  · have hinner : ∀ line ∈ aliases.flatten, IsInner line := by
      intro line hline
      obtain ⟨part, hpart, hline⟩ := List.mem_flatten.mp hline
      obtain ⟨spelling, -, hspelling⟩ := (Result.mem_of_mapM haliases).mp hpart
      exact isInner_of_wrapperAlias hspelling line hline
    split
    · simp
    · exact List.forall_mem_cons.mpr ⟨by simp [IsInner], hinner⟩
  · simp [IsInner]

/-! ### Extensions -/

theorem reads_extensionSource (h : c.extensionSource = .ok lines) :
    c.Reads (if c.document.extensions.isEmpty then [] else [.extensionInfo, .extensionTable])
      lines := by
  rw [extensionSource] at h
  split at h
  · next hnone =>
    rw [if_pos hnone, ← Except.ok.inj h]
    exact .nil
  · next hsome =>
    obtain ⟨table, htable, h⟩ := Result.bind_eq_ok_iff.mp h
    obtain rfl := Result.pure_eq_ok_iff.mp h
    rw [if_neg hsome]
    have hinfo : DeclaresPlainly ["pub const ExtensionInfo = struct \x7b"] "ExtensionInfo" :=
      declaresPlainly_opening (isName_of_forall (by simp)) " = struct \x7b" rfl
        (by simp [EndsName]) (by simp [GivesPointer])
    have hopening : DeclaresPlainly ["pub const extension_info = struct \x7b"] "extension_info" :=
      declaresPlainly_opening (isName_of_forall (by simp)) " = struct \x7b" rfl
        (by simp [EndsName]) (by simp [GivesPointer])
    have hinner : ∀ line ∈ table, IsInner line := by
      intro line hline
      obtain ⟨x, -, hx⟩ := (Result.mem_of_mapM htable).mp hline
      obtain ⟨name, -, hx⟩ := Result.bind_eq_ok_iff.mp hx
      obtain ⟨version, -, hx⟩ := Result.bind_eq_ok_iff.mp hx
      obtain rfl := Result.pure_eq_ok_iff.mp hx
      simp [IsInner]
    have hinfo := @DeclaresPlainly.append _ _
      ["    name: [:0]const u8,", "    version: u32,", "\x7d;", ""] hinfo (by simp [IsInner])
    have htable := @DeclaresPlainly.append _ _ ["\x7d;"] (hopening.append hinner)
      (by simp [IsInner])
    exact (reads_of_declaresPlainly hinfo rfl fun _ ↦ id).append
      (reads_of_declaresPlainly htable rfl fun _ ↦ id)

/-! ## The whole scope -/

variable {sections : List (List String)} {d : Document}

theorem sections_eq_ok (h : c.sections = .ok sections) :
    ∃ signatures header constants version types taken aliases checks pointers taken' dispatch
      extensions,
      c.signatures = .ok signatures ∧ fileHeader c.document.version registryName = .ok header ∧
      c.constantsSource = .ok constants ∧ c.versionSource = .ok version ∧
      c.typeSections = .ok (types, taken) ∧ c.aliasSource = .ok aliases ∧
      c.partitions.values.mapM c.resultCheckSource = .ok checks ∧
      c.commandPointers taken = .ok (pointers, taken') ∧
      c.dispatchSource signatures = .ok dispatch ∧ c.extensionSource = .ok extensions ∧
      sections = [header ++ ["", "const std = @import(\"std\");"], constants, version] ++ types
        ++ [aliases] ++ checks ++ [pointers, dispatch, extensions] := by
  obtain ⟨signatures, hsignatures, h⟩ := Result.bind_eq_ok_iff.mp h
  obtain ⟨header, hheader, h⟩ := Result.bind_eq_ok_iff.mp h
  obtain ⟨constants, hconstants, h⟩ := Result.bind_eq_ok_iff.mp h
  obtain ⟨version, hversion, h⟩ := Result.bind_eq_ok_iff.mp h
  obtain ⟨⟨types, taken⟩, htypes, h⟩ := Result.bind_eq_ok_iff.mp h
  obtain ⟨aliases, haliases, h⟩ := Result.bind_eq_ok_iff.mp h
  obtain ⟨checks, hchecks, h⟩ := Result.bind_eq_ok_iff.mp h
  obtain ⟨⟨pointers, taken'⟩, hpointers, h⟩ := Result.bind_eq_ok_iff.mp h
  obtain ⟨dispatch, hdispatch, h⟩ := Result.bind_eq_ok_iff.mp h
  obtain ⟨extensions, hextensions, h⟩ := Result.bind_eq_ok_iff.mp h
  obtain rfl := Result.pure_eq_ok_iff.mp h
  exact ⟨_, _, _, _, _, _, _, _, _, _, _, _, hsignatures, hheader, hconstants, hversion, htypes,
    haliases, hchecks, hpointers, hdispatch, hextensions, rfl⟩

/-- The items in the order of the sections, given the commands that have a pointer. -/
def scopeItems (c : Context) (own : List CommandDecl) : List ScopeItem :=
  c.document.apiConstants.keys.map ScopeItem.constant ++ c.versionItems
    ++ c.declaredTypes.map ScopeItem.type
    ++ c.graph.aliases.filterMap c.aliasItem?
    ++ (c.partitions.values.flatMap fun p ↦ [ScopeItem.errorSet p, ScopeItem.check p])
    ++ own.map ScopeItem.pointer ++ [ScopeItem.dispatch]
    ++ if c.document.extensions.isEmpty then []
      else [ScopeItem.extensionInfo, ScopeItem.extensionTable]

/-- The section of an item. -/
def sectionOf : ScopeItem → ℕ
  | .constant _ => 0
  | .makeVersion | .currentVersion => 1
  | .type _ => 2
  | .typeAlias _ _ => 3
  | .errorSet _ | .check _ => 4
  | .pointer _ => 5
  | .dispatch => 6
  | .extensionInfo | .extensionTable => 7

/-- Items of one section, each once. -/
def Within (items : List ScopeItem) (n : ℕ) : Prop :=
  items.Nodup ∧ ∀ item ∈ items, sectionOf item = n

/-- Items of earlier sections, each once. -/
def Before (items : List ScopeItem) (n : ℕ) : Prop :=
  items.Nodup ∧ ∀ item ∈ items, sectionOf item < n

theorem Within.map {α : Type} {f : α → ScopeItem} {xs : List α} {n : ℕ} (hxs : xs.Nodup)
    (hf : Function.Injective f) (hsection : ∀ x, sectionOf (f x) = n) : Within (xs.map f) n :=
  ⟨hxs.map hf, List.forall_mem_map.mpr fun x _ ↦ hsection x⟩

theorem Within.before {n : ℕ} (h : Within items n) : Before items (n + 1) :=
  ⟨h.1, fun item hitem ↦ (h.2 item hitem).trans_lt n.lt_succ_self⟩

theorem Before.append {n : ℕ} (h : Before items n) (h' : Within items' n) :
    Before (items ++ items') (n + 1) := by
  constructor
  · refine List.nodup_append.mpr ⟨h.1, h'.1, ?_⟩
    rintro item hitem _ hitem' rfl
    exact (h.2 item hitem).ne (h'.2 item hitem')
  · rw [List.forall_mem_append]
    exact ⟨fun item hitem ↦ (h.2 item hitem).trans n.lt_succ_self, h'.before.2⟩

theorem within_versionItems (c : Context) : Within c.versionItems 1 := by
  rw [versionItems]
  split
  · simp [Within]
  · split <;> simp [Within, sectionOf]

theorem within_aliasItems (hgraph : c.document.typeGraph = .ok c.graph) :
    Within (c.graph.aliases.filterMap c.aliasItem?) 3 := by
  constructor
  · have hnodup : c.graph.aliases.Nodup :=
      .of_map Prod.fst (c.document.types.nodup_keys.sublist (map_fst_aliases_sublist hgraph))
    refine hnodup.filterMap fun e e' item he he' ↦ ?_
    have hsame := (aliasItem?_eq_some_iff.mp he).2.symm.trans (aliasItem?_eq_some_iff.mp he').2
    exact Prod.ext (ScopeItem.typeAlias.inj hsame).1 (ScopeItem.typeAlias.inj hsame).2
  · intro item hitem
    obtain ⟨e, -, he⟩ := List.mem_filterMap.mp hitem
    rw [(aliasItem?_eq_some_iff.mp he).2]
    rfl

theorem nodup_values_partitions (hn : EnumsNamed d.enums)
    {partitions : Table String ResultPartition} (h : d.partitions = .ok partitions) :
    partitions.values.Nodup := by
  have hnames : partitions.values.map (·.enumName) = partitions.keys := by
    rw [Table.values, Table.keys, List.map_map]
    refine List.map_congr_left fun e he ↦ ?_
    exact enumName_of_get?_partitions hn h ((Table.get?_eq_some_iff _).mpr he)
  have hnodup : partitions.keys.Nodup := partitions.nodup_keys
  exact .of_map _ (hnames ▸ hnodup)

theorem within_checkItems {partitions : List ResultPartition} (h : partitions.Nodup) :
    Within (partitions.flatMap fun p ↦ [.errorSet p, .check p]) 4 := by
  constructor
  · refine List.nodup_flatMap.mpr ⟨fun p _ ↦ by simp, h.imp fun {p q} hne ↦ ?_⟩
    simp [Function.onFun, hne.symm]
  · simp only [List.mem_flatMap, List.mem_cons, List.not_mem_nil, or_false]
    rintro item ⟨p, -, rfl | rfl⟩
    · rfl
    · rfl

theorem nodup_scopeItems (hd : d.Accepted) (hc : Context.ofDocument d = .ok c)
    {own : List CommandDecl} (hown : own.Nodup) : (c.scopeItems own).Nodup := by
  obtain ⟨rfl, hgraph, hpartitions⟩ := ofDocument_eq_ok hc
  obtain ⟨hn, -, henums⟩ := hd.consistent
  have hconstants : Within (c.document.apiConstants.keys.map .constant) 0 :=
    .map c.document.apiConstants.nodup_keys (fun _ _ ↦ ScopeItem.constant.inj) fun _ ↦ rfl
  have htypes : Within (c.declaredTypes.map .type) 2 :=
    .map ((nodup_typeOrder hn (typeGraph_eq_ok hgraph).2.1).filter _)
      (fun _ _ ↦ ScopeItem.type.inj) fun _ ↦ rfl
  have hpointers : Within (own.map .pointer) 5 :=
    .map hown (fun _ _ ↦ ScopeItem.pointer.inj) fun _ ↦ rfl
  have hdispatch : Within [.dispatch] 6 := by simp [Within, sectionOf]
  have hextensions : Within (if c.document.extensions.isEmpty then []
      else [ScopeItem.extensionInfo, .extensionTable]) 7 := by
    split <;> simp [Within, sectionOf]
  have hchecks := within_checkItems (nodup_values_partitions henums hpartitions)
  exact (((((((hconstants.before.append c.within_versionItems).append htypes).append
    (within_aliasItems hgraph)).append hchecks).append hpointers).append hdispatch).append
      hextensions).1

theorem firstPointer_iff_ownsPointer {types : List (List String)} {taken : List String}
    (h : c.typeSections = .ok (types, taken)) {command : CommandDecl} :
    c.FirstPointer taken c.document.commands.values command ↔ c.OwnsPointer command := by
  refine and_congr_left fun _ ↦ ?_
  have htaken := @Result.mem_of_mapM _ _ _ _ _ (typeSections_eq_ok h).2
  constructor
  · intro hfree decl hdecl hsame
    obtain ⟨name, hname, hdecl⟩ := Result.exists_of_mapM (typeSections_eq_ok h).2 hdecl
    exact hfree name hname (hsame.symm.trans hdecl)
  · intro hfree name hname hsame
    obtain ⟨decl, hdecl, hdeclared⟩ := htaken.mp hname
    exact hfree decl hdecl (hdeclared.trans hsame.symm)

theorem mem_scopeItems_iff {own : List CommandDecl}
    (hown : ∀ command, command ∈ own ↔ c.OwnsPointer command) :
    item ∈ c.scopeItems own ↔ c.InScope item := by
  have hversion : item ∈ c.versionItems ↔ c.document.hasType versionType = true ∧
      (item = .makeVersion ∨ item = .currentVersion ∧ c.hasNumbers = true) := by
    rw [versionItems]
    cases c.document.hasType versionType <;> cases c.hasNumbers <;> simp
  have hextensions : item ∈ (if c.document.extensions.isEmpty then []
      else [ScopeItem.extensionInfo, .extensionTable]) ↔
      c.document.extensions ≠ [] ∧ (item = .extensionInfo ∨ item = .extensionTable) := by
    cases c.document.extensions <;> simp
  simp only [scopeItems, List.mem_append, hversion, hextensions, List.mem_map, List.mem_filterMap,
    aliasItem?_eq_some_iff, List.mem_flatMap, List.mem_cons, List.not_mem_nil, hown]
  cases item <;> simp [InScope, and_comm]

/-- **What is declared is what is in scope,** each item once. -/
theorem exists_reads_sections (hd : d.Accepted) (hc : Context.ofDocument d = .ok c)
    (h : c.sections = .ok sections) :
    ∃ items, items.Nodup ∧ (∀ item, item ∈ items ↔ c.InScope item) ∧
      c.Reads items sections.flatten := by
  obtain ⟨_, _, _, _, types, taken, _, _, pointers, taken', _, _, -, hheader, hconstants, hversion,
    htypes, haliases, hchecks, hpointers, hdispatch, hextensions, rfl⟩ := sections_eq_ok h
  obtain ⟨own, hown⟩ := pointersRead_commandPointers hpointers
  have hpointers : ∀ command, command ∈ own ↔ c.OwnsPointer command :=
    fun command ↦ (hown.mem_iff command).trans (firstPointer_iff_ownsPointer htypes)
  have hchecks := reads_flatten ((Result.mapM_eq_ok_iff.mp hchecks).imp
    fun _ _ ↦ reads_resultCheckSource)
  have hreads := ((((((((reads_fileHeader hheader).append (reads_constantsSource hconstants)).append
    (reads_versionSource hversion)).append (reads_typeSections htypes)).append
    (reads_aliasSource haliases)).append hchecks).append hown.reads).append
    (reads_dispatchSource hdispatch)).append (reads_extensionSource hextensions)
  refine ⟨c.scopeItems own, nodup_scopeItems hd hc hown.nodup,
    fun item ↦ mem_scopeItems_iff hpointers, ?_⟩
  simpa [scopeItems] using hreads

end Context

end XrBindings
