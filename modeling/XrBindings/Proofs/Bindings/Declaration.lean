import XrBindings.Bindings.Source
import XrBindings.Proofs.Bindings.EnumMembers
import XrBindings.Proofs.Bindings.ZigType
import XrBindings.Proofs.Zig.Declaration

/-!
# What the declaration of a type declares

The lines of a declaration, read back, declare the name of the type in the file and nothing else:
all lines but the first stand inside. What stands behind the name tells the declarations of function
pointers from all others, because only the value of a function pointer begins like a pointer to one
object: names, numbers and foreign types do not.
-/

namespace XrBindings

open XrBindings.Naming XrBindings.Zig

/-! ## Names that are rendered -/

namespace Naming.Renderer

variable {r : Renderer} {name text : String} {style : CaseStyle}

theorem exists_of_render (h : r.render name style = .ok text) :
    ∃ body, text = writeIdentifier body := by
  obtain ⟨body, -, rfl⟩ := Result.map_eq_ok_iff.mp h
  exact ⟨body, rfl⟩

theorem exists_of_commandPointerName (h : r.commandPointerName name = .ok text) :
    ∃ body, text = writeIdentifier body := by
  obtain ⟨body, -, rfl⟩ := Result.map_eq_ok_iff.mp h
  exact ⟨_, rfl⟩

theorem exists_of_typeName (h : r.typeName name = .ok text) :
    ∃ body, text = writeIdentifier body := by
  rw [typeName] at h
  split at h
  · obtain ⟨body, -, rfl⟩ := Result.map_eq_ok_iff.mp h
    exact ⟨_, rfl⟩
  · split at h
    · exact ⟨_, (Except.ok.inj h).symm⟩
    · exact exists_of_render h

end Naming.Renderer

theorem Context.exists_of_declaredName {c : Context} {n : TypeName} {name : String}
    (h : c.declaredName n = .ok name) : ∃ body, name = writeIdentifier body := by
  obtain ⟨spelling, -, h⟩ := Result.bind_eq_ok_iff.mp h
  exact Naming.Renderer.exists_of_typeName h

theorem Context.isName_of_declaredName {c : Context} {n : TypeName} {name : String}
    (h : c.declaredName n = .ok name) : IsName name := by
  obtain ⟨body, rfl⟩ := c.exists_of_declaredName h
  exact isName_writeIdentifier body

/-! ## Foreign types -/

/-- The text is that of a foreign type in Zig. -/
def Zig.IsForeignText (text : String) : Prop := ∃ e ∈ cTypes ++ platformTypes, e.2 = text

theorem Zig.isForeignText_of_lookup {n type : String}
    (h : cTypes.lookup n = some type ∨ platformTypes.lookup n = some type) :
    IsForeignText type := by
  obtain h | h := h
  · obtain ⟨before, after, hsplit, -⟩ := List.lookup_eq_some_iff.mp h
    have hmem : (n, type) ∈ cTypes := hsplit ▸ List.mem_append_right _ List.mem_cons_self
    exact ⟨_, List.mem_append_left _ hmem, rfl⟩
  · obtain ⟨before, after, hsplit, -⟩ := List.lookup_eq_some_iff.mp h
    have hmem : (n, type) ∈ platformTypes := hsplit ▸ List.mem_append_right _ List.mem_cons_self
    exact ⟨_, List.mem_append_right _ hmem, rfl⟩

/-- Foreign types are primitive types or no words at all, but none is quoted, and none is a pointer
to one object that cannot be null. -/
theorem Zig.IsForeignText.spec {text : String} (h : IsForeignText text) :
    (isPrimitive text || !isValidIdentifier text) = true ∧
      text.toList.head? ≠ some '*' ∧ text.toList.head? ≠ some '@' := by
  have htables : ∀ e ∈ cTypes ++ platformTypes,
      (isPrimitive e.2 || !isValidIdentifier e.2) = true ∧
        e.2.toList.head? ≠ some '*' ∧ e.2.toList.head? ≠ some '@' := by decide +kernel
  obtain ⟨e, he, rfl⟩ := h
  exact htables e he

theorem Zig.not_isForeignText_writeIdentifier (name : String) :
    ¬IsForeignText (writeIdentifier name) := by
  intro hforeign
  obtain ⟨hquoted, -, hhead⟩ := hforeign.spec
  rw [writeIdentifier] at hquoted hhead
  split at hquoted
  · next hname =>
    rw [if_pos hname] at hhead
    exact hhead (by simp [quoteIdentifier])
  · next hplain => exact hplain hquoted

/-- A type is written as in the tables of foreign types or by a name. -/
theorem Context.baseType_cases {c : Context} {n type : String} (h : c.baseType n = .ok type) :
    IsForeignText type ∨ c.declaredName (some n) = .ok type := by
  rw [baseType] at h
  split at h
  · next hlookup => exact Or.inl (isForeignText_of_lookup (Or.inl (Except.ok.inj h ▸ hlookup)))
  · split at h
    · next hlookup => exact Or.inl (isForeignText_of_lookup (Or.inr (Except.ok.inj h ▸ hlookup)))
    · split at h
      · exact Or.inr h
      · exact absurd h Result.reject_ne_ok

/-! ## Pointer types -/

/-- The text is that of a pointer to one object. -/
def Zig.IsPointerText (text : String) : Prop := text.toList.head? = some '*'

/-- The text behind a name says that it is a pointer to one object. -/
def Zig.GivesPointer (text : String) : Prop := " = *".toList <+: text.toList

theorem Zig.givesPointer_value {value : String} :
    GivesPointer (" = " ++ value ++ ";") ↔ IsPointerText value := by
  rw [GivesPointer, IsPointerText, String.toList_append, String.toList_append]
  cases hvalue : value.toList with
  | nil => simp
  | cons c cs => simp [eq_comm]

/-- What stands behind a name determines the value. -/
theorem Zig.value_inj {a b : String} : " = " ++ a ++ ";" = " = " ++ b ++ ";" ↔ a = b := by
  simp

theorem Zig.not_isPointerText_writeIdentifier (name : String) :
    ¬IsPointerText (writeIdentifier name) := by
  rw [IsPointerText]
  rcases writeIdentifier_cases name with ⟨hname, hplain⟩ | hname
  · rw [hname]
    generalize name.toList = chars at hplain
    intro h
    obtain ⟨rest, rfl⟩ := List.head?_eq_some_iff.mp h
    exact absurd hplain (by simp [isPlainWord])
  · rw [hname, toList_quoteIdentifier]
    simp

theorem Context.not_isPointerText_baseType {c : Context} {n type : String}
    (h : c.baseType n = .ok type) : ¬IsPointerText type := by
  obtain hforeign | hname := c.baseType_cases h
  · exact hforeign.spec.2.1
  · obtain ⟨body, rfl⟩ := c.exists_of_declaredName hname
    exact not_isPointerText_writeIdentifier body

theorem Context.isPointerText_functionType {c : Context} {returns : Field} {params : List Field}
    {type : String} (h : c.functionType returns params = .ok type) : IsPointerText type := by
  obtain ⟨args, -, h⟩ := Result.bind_eq_ok_iff.mp h
  obtain ⟨result, -, h⟩ := Result.bind_eq_ok_iff.mp h
  obtain rfl := Result.pure_eq_ok_iff.mp h
  simp [IsPointerText]

/-! ### Numbers -/

theorem Number.star_notMem_toDigits (n : ℕ) : '*' ∉ Nat.toDigits 10 n := fun h ↦
  absurd (Nat.isDigit_of_mem_toDigits (by decide) (by decide) h) (by decide)

theorem Number.RealText.not_isPointerText_layout {digits : List Char} (h : '*' ∉ digits)
    (top : Int) : ¬IsPointerText (RealText.layout digits top) := by
  have hfirst : ∀ d ∈ digits, d ≠ '*' := fun d hd ↦ by rintro rfl; exact h hd
  rw [IsPointerText, RealText.layout.eq_def]
  split
  · split
    · simp
    · simpa [String.toList_append] using hfirst _ List.mem_cons_self
    · simpa using hfirst _ List.mem_cons_self
  · split
    · simp
    · cases hwhole : digits.take (top.toNat + 1) with
      | nil => simp [List.rightpad, List.replicate_succ]
      | cons d whole =>
        have hd : d ∈ digits := List.mem_of_mem_take (hwhole ▸ List.mem_cons_self)
        simpa [List.rightpad] using hfirst d hd

theorem Number.RealText.not_isPointerText_print (x : Number.Binary64) :
    ¬IsPointerText (Number.RealText.print x) := by
  cases x with
  | notANumber => simp [IsPointerText, RealText.print]
  | infinite negative => cases negative <;> simp [IsPointerText, RealText.print]
  | finite negative m q =>
    rw [RealText.print]
    dsimp only
    split
    · simp [IsPointerText]
    · split
      · simp [IsPointerText]
      · refine not_isPointerText_layout (fun h ↦ ?_) _
        rw [List.mem_reverse] at h
        exact star_notMem_toDigits _ (List.mem_reverse.mp ((List.dropWhile_sublist _).subset h))

theorem Number.not_isPointerText_toString (n : Int) : ¬IsPointerText (toString n) := by
  rw [IsPointerText, Int.toString_eq_repr, Int.repr_eq_if]
  split
  · rw [Nat.repr, String.toList_ofList]
    exact fun hhead ↦ star_notMem_toDigits _ (List.mem_of_mem_head? hhead)
  · simp

/-! ## Lines of a declaration -/

/-- The lines declare one name in the file, and not as a pointer to one object. -/
def DeclaresPlainly (lines : List String) (name : String) : Prop :=
  ∃ text, declarations lines = [(name, text)] ∧ ¬GivesPointer text

variable {name : String} {lines lines' : List String}

theorem declaresPlainly_opening {line : String} (hname : IsName name) (rest : String)
    (hline : line = "pub const " ++ name ++ rest) (hrest : EndsName rest)
    (hplain : ¬GivesPointer rest) : DeclaresPlainly [line] name := by
  subst hline
  exact ⟨rest, declarations_cons (declaration?_const hname hrest) (by simp), hplain⟩

theorem declaresPlainly_function {line : String} (hname : IsName name) (rest : String)
    (hline : line = "pub fn " ++ name ++ rest) (hrest : EndsName rest)
    (hplain : ¬GivesPointer rest) : DeclaresPlainly [line] name := by
  subst hline
  exact ⟨rest, declarations_cons (declaration?_fn hname hrest) (by simp), hplain⟩

theorem DeclaresPlainly.append (h : DeclaresPlainly lines name)
    (hlines : ∀ line ∈ lines', IsInner line) : DeclaresPlainly (lines ++ lines') name := by
  obtain ⟨text, htext, hplain⟩ := h
  refine ⟨text, ?_, hplain⟩
  rw [declarations_append, htext, declarations_of_isInner hlines, List.append_nil]

theorem declarations_constantLine (hname : IsName name) (value : String) :
    declarations [Context.constantLine name value] = [(name, " = " ++ value ++ ";")] := by
  have hrest : EndsName (" = " ++ value ++ ";") := by simp [EndsName]
  have hline := declarations_cons (declaration?_const hname hrest) (List.forall_mem_nil IsInner)
  rwa [← String.append_assoc, ← String.append_assoc] at hline

theorem declaresPlainly_constantLine (hname : IsName name) {value : String}
    (hvalue : ¬IsPointerText value) :
    DeclaresPlainly [Context.constantLine name value] name :=
  ⟨_, declarations_constantLine hname value, mt givesPointer_value.mp hvalue⟩

theorem EnumMembers.isInner_of_fieldLine {f : EnumField} {line : String}
    (h : fieldLine f = .ok line) : IsInner line := by
  obtain ⟨value, -, rfl⟩ := Result.map_eq_ok_iff.mp h
  simp [IsInner]

theorem EnumMembers.declaresPlainly_source {m : EnumMembers} (hname : IsName name)
    (h : m.source name = .ok lines) : DeclaresPlainly lines name := by
  obtain ⟨fields, hfields, h⟩ := Result.bind_eq_ok_iff.mp h
  obtain rfl := Result.pure_eq_ok_iff.mp h
  have hopening :
      DeclaresPlainly ["pub const " ++ name ++ " = enum(" ++ m.tagType ++ ") \x7b"] name :=
    declaresPlainly_opening hname (" = enum(" ++ (m.tagType ++ ") \x7b"))
      (by simp only [String.append_assoc]) (by simp [EndsName]) (by simp [GivesPointer])
  refine (((hopening.append fun line hline ↦ ?_).append ?_).append ?_).append ?_
  · obtain ⟨f, -, hf⟩ := (Result.mem_of_mapM hfields).mp hline
    exact isInner_of_fieldLine hf
  · simp [IsInner]
  · split
    · simp
    · simp only [List.forall_mem_cons, List.forall_mem_map]
      simp [IsInner]
  · simp [IsInner]

theorem FlagLayout.isInner_functionLines (signature result expression : String) :
    ∀ line ∈ functionLines signature result expression, IsInner line := by
  simp only [functionLines, List.forall_mem_cons]
  simp [IsInner]

theorem FlagLayout.declaresPlainly_source {l : FlagLayout} (hname : IsName l.name) :
    DeclaresPlainly l.source l.name := by
  have hopening : DeclaresPlainly
      ["pub const " ++ l.name ++ " = packed struct(" ++ l.intType ++ ") \x7b"] l.name :=
    declaresPlainly_opening hname (" = packed struct(" ++ (l.intType ++ ") \x7b"))
      (by simp only [String.append_assoc]) (by simp [EndsName]) (by simp [GivesPointer])
  -- Not by its equation, which takes long to derive.
  delta FlagLayout.source
  simp only [List.append_assoc]
  refine hopening.append ?_
  simp only [List.forall_mem_append, List.forall_mem_cons, List.forall_mem_map,
    eq_true (isInner_functionLines _ _ _), true_and]
  simp [IsInner]

namespace Context

variable {c : Context} {fields : List Field}

theorem isInner_of_fieldLine {defaults : Table String String} {f : Field} {line : String}
    (h : c.fieldLine defaults f = .ok line) : IsInner line := by
  obtain ⟨typed, -, h⟩ := Result.bind_eq_ok_iff.mp h
  obtain rfl := Result.pure_eq_ok_iff.mp h
  simp [IsInner]

theorem isInner_of_settingLines {f : Field} (h : c.settingLines f = .ok lines) :
    ∀ line ∈ lines, IsInner line := by
  rw [settingLines] at h
  split at h
  · obtain ⟨literal, -, h⟩ := Result.bind_eq_ok_iff.mp h
    obtain ⟨name, -, h⟩ := Result.bind_eq_ok_iff.mp h
    rw [← Result.pure_eq_ok_iff.mp h]
    simp [IsInner]
  · split at h
    · obtain ⟨name, -, h⟩ := Result.bind_eq_ok_iff.mp h
      rw [← Result.pure_eq_ok_iff.mp h]
      simp [IsInner]
    · rw [← Result.pure_eq_ok_iff.mp h]
      simp

theorem isInner_of_emptyFunction (h : c.emptyFunction name fields = .ok lines) :
    ∀ line ∈ lines, IsInner line := by
  obtain ⟨settings, hsettings, h⟩ := Result.bind_eq_ok_iff.mp h
  obtain rfl := Result.pure_eq_ok_iff.mp h
  have hflatten : ∀ line ∈ settings.flatten, IsInner line := by
    intro line hline
    obtain ⟨setting, hsetting, hline⟩ := List.mem_flatten.mp hline
    obtain ⟨f, -, hf⟩ := (Result.mem_of_mapM hsettings).mp hsetting
    exact isInner_of_settingLines hf line hline
  simp only [List.forall_mem_append, List.forall_mem_cons]
  exact ⟨⟨by simp [IsInner], hflatten⟩, by simp [IsInner]⟩

theorem declaresPlainly_structSource (hname : IsName name)
    (h : c.structSource name fields = .ok lines) : DeclaresPlainly lines name := by
  have hopening : DeclaresPlainly ["pub const " ++ name ++ " = extern struct \x7b"] name :=
    declaresPlainly_opening hname _ rfl (by simp [EndsName]) (by simp [GivesPointer])
  obtain ⟨defaults, -, h⟩ := Result.bind_eq_ok_iff.mp h
  obtain ⟨fieldLines, hfields, h⟩ := Result.bind_eq_ok_iff.mp h
  have hinner : ∀ line ∈ fieldLines, IsInner line := by
    intro line hline
    obtain ⟨f, -, hf⟩ := (Result.mem_of_mapM hfields).mp hline
    exact isInner_of_fieldLine hf
  dsimp only at h
  split at h
  · obtain ⟨function, hfunction, h⟩ := Result.bind_eq_ok_iff.mp h
    rw [← Result.pure_eq_ok_iff.mp h]
    exact ((hopening.append hinner).append (isInner_of_emptyFunction hfunction)).append
      (by simp [IsInner])
  · rw [← Result.pure_eq_ok_iff.mp h]
    exact ((hopening.append hinner).append (by simp)).append (by simp [IsInner])

theorem declaresPlainly_unionSource (hname : IsName name)
    (h : c.unionSource name fields = .ok lines) : DeclaresPlainly lines name := by
  obtain ⟨fieldLines, hfields, h⟩ := Result.bind_eq_ok_iff.mp h
  obtain rfl := Result.pure_eq_ok_iff.mp h
  have hopening : DeclaresPlainly ["pub const " ++ name ++ " = extern union \x7b"] name :=
    declaresPlainly_opening hname _ rfl (by simp [EndsName]) (by simp [GivesPointer])
  refine (hopening.append fun line hline ↦ ?_).append (by simp [IsInner])
  obtain ⟨f, -, hf⟩ := (Result.mem_of_mapM hfields).mp hline
  exact isInner_of_fieldLine hf

end Context

/-! ## The declaration of a type -/

theorem FlagLayout.name_of_addValue {r : Renderer} {enumName : String} {l l' : FlagLayout}
    {v : EnumValue} (h : addValue r enumName l v = .ok l') : l'.name = l.name := by
  obtain ⟨_, _, _, _, -, -, ⟨p, -, rfl⟩ | ⟨-, -, rfl⟩⟩ := addValue_cases h <;> rfl

theorem Context.name_of_flagLayout {c : Context} {bitsEnum : Option String} {width : Int}
    {l : FlagLayout} (h : c.flagLayout name bitsEnum width = .ok l) : l.name = name := by
  obtain rfl | ⟨decl, h⟩ := flagLayout_cases h
  · rfl
  · obtain ⟨l', hl', h⟩ := Result.bind_eq_ok_iff.mp h
    obtain rfl := Result.pure_eq_ok_iff.mp h
    exact Result.foldlM_induction (·.name = name) hl' rfl fun _ _ _ hname hstep ↦
      (FlagLayout.name_of_addValue hstep).trans hname

/-- Zig has the type under a name of its own, so it is not declared. -/
def TypeDecl.isForeign : TypeDecl → Bool
  | .external source _ => isCType source || isPlatformType source
  | _ => false

namespace Context

variable {c : Context} {decl : TypeDecl}

/-- The declaration is that of functions of this type. -/
def DeclaresFunction (c : Context) (decl : TypeDecl) (type : String) : Prop :=
  match decl with
  | .functionPointer _ returns params => c.functionType returns params = .ok type
  | _ => False

theorem DeclaresFunction.eq_iff {own : String} (h : c.DeclaresFunction decl own) (type : String) :
    own = type ↔ c.DeclaresFunction decl type := by
  cases decl with
  | functionPointer source returns params =>
    have hown : c.functionType returns params = .ok own := h
    rw [DeclaresFunction, hown, Except.ok.injEq]
  | _ => exact absurd h id

theorem declaresPlainly_enumSource {enumName : String} (hname : IsName name)
    (h : c.enumSource name enumName = .ok lines) : DeclaresPlainly lines name := by
  rw [enumSource] at h
  split at h
  · cases h
  · split at h
    · obtain ⟨m, -, h⟩ := Result.bind_eq_ok_iff.mp h
      exact m.declaresPlainly_source hname h
    · split at h
      · obtain ⟨target, htarget, h⟩ := Result.bind_eq_ok_iff.mp h
        obtain rfl := Result.pure_eq_ok_iff.mp h
        obtain ⟨body, rfl⟩ := c.exists_of_declaredName htarget
        exact declaresPlainly_constantLine hname (not_isPointerText_writeIdentifier body)
      · obtain ⟨l, hl, rfl⟩ := Result.map_eq_ok_iff.mp h
        obtain rfl := name_of_flagLayout hl
        exact l.declaresPlainly_source hname

/-- The kinds of declaration, as their lines show them. -/
theorem declarationSource_cases (h : c.declarationSource decl = .ok lines) :
    ∃ name, c.declaredName decl.name = .ok name ∧
      (decl.isForeign = true ∧ lines = [] ∨
        decl.isForeign = false ∧
          (DeclaresPlainly lines name ∧ (∀ type, ¬c.DeclaresFunction decl type) ∨
            ∃ type, c.DeclaresFunction decl type ∧ lines = [constantLine name type])) := by
  obtain ⟨name, hname, h⟩ := Result.bind_eq_ok_iff.mp h
  have hisName := c.isName_of_declaredName hname
  refine ⟨name, hname, ?_⟩
  cases decl with
  | aliasOf source target category => exact absurd h Result.reject_ne_ok
  | base source underlying =>
    refine Or.inr ⟨rfl, Or.inl ⟨?_, fun _ ↦ id⟩⟩
    cases underlying with
    | none =>
      rw [← Result.pure_eq_ok_iff.mp h]
      exact declaresPlainly_constantLine hisName (by simp [IsPointerText])
    | some underlying =>
      obtain ⟨type, htype, h⟩ := Result.bind_eq_ok_iff.mp h
      rw [← Result.pure_eq_ok_iff.mp h]
      exact declaresPlainly_constantLine hisName (not_isPointerText_baseType htype)
  | external source required =>
    have hlines := Result.pure_eq_ok_iff.mp h
    cases hforeign : Zig.isCType source || Zig.isPlatformType source with
    | true =>
      rw [hforeign] at hlines
      exact Or.inl ⟨hforeign, hlines.symm⟩
    | false =>
      rw [hforeign] at hlines
      refine Or.inr ⟨hforeign, Or.inl ⟨?_, fun _ ↦ id⟩⟩
      rw [← hlines]
      exact declaresPlainly_constantLine hisName (by simp [IsPointerText])
  | handle source dispatch parent =>
    refine Or.inr ⟨rfl, Or.inl ⟨?_, fun _ ↦ id⟩⟩
    rw [← Result.pure_eq_ok_iff.mp h]
    exact declaresPlainly_constantLine hisName (by simp [IsPointerText])
  | bitmask source width bitsEnum =>
    refine Or.inr ⟨rfl, Or.inl ⟨?_, fun _ ↦ id⟩⟩
    obtain ⟨l, hl, rfl⟩ := Result.map_eq_ok_iff.mp h
    obtain rfl := name_of_flagLayout hl
    exact l.declaresPlainly_source hisName
  | enum source => exact Or.inr ⟨rfl, Or.inl ⟨declaresPlainly_enumSource hisName h, fun _ ↦ id⟩⟩
  | struct source fields extended returnedOnly =>
    exact Or.inr ⟨rfl, Or.inl ⟨declaresPlainly_structSource hisName h, fun _ ↦ id⟩⟩
  | union source fields =>
    exact Or.inr ⟨rfl, Or.inl ⟨declaresPlainly_unionSource hisName h, fun _ ↦ id⟩⟩
  | functionPointer source returns params =>
    obtain ⟨type, htype, h⟩ := Result.bind_eq_ok_iff.mp h
    exact Or.inr ⟨rfl, Or.inr ⟨type, htype, (Result.pure_eq_ok_iff.mp h).symm⟩⟩

/-- **A declaration declares its own name and nothing else,** unless Zig has the type already. Only
the declaration of a function pointer gives the name a function type, and gives it its own. -/
theorem declarations_declarationSource (h : c.declarationSource decl = .ok lines) :
    decl.isForeign = true ∧ lines = [] ∨
      decl.isForeign = false ∧ ∃ name text, c.declaredName decl.name = .ok name ∧
        declarations lines = [(name, text)] ∧ ∀ type, IsPointerText type →
          (text = " = " ++ type ++ ";" ↔ c.DeclaresFunction decl type) := by
  obtain ⟨name, hname, hforeign | ⟨hforeign, hlines⟩⟩ := declarationSource_cases h
  · exact Or.inl hforeign
  · refine Or.inr ⟨hforeign, name, ?_⟩
    obtain ⟨⟨text, htext, hplain⟩, hnone⟩ | ⟨own, hown, rfl⟩ := hlines
    · refine ⟨text, hname, htext, fun type htype ↦ iff_of_false ?_ (hnone type)⟩
      rintro rfl
      exact hplain (givesPointer_value.mpr htype)
    · refine ⟨_, hname, declarations_constantLine (c.isName_of_declaredName hname) own, ?_⟩
      exact fun type _ ↦ value_inj.trans (hown.eq_iff type)

/-- The types that the bindings declare, in their order. -/
def declaredTypes (c : Context) : List TypeDecl := c.graph.order.filter fun decl ↦ !decl.isForeign

theorem mem_declaredTypes_iff :
    decl ∈ c.declaredTypes ↔ decl ∈ c.graph.order ∧ decl.isForeign = false := by
  rw [declaredTypes, List.mem_filter, Bool.not_eq_true']

theorem typeSections_eq_ok {types : List (List String)} {taken : List String}
    (h : c.typeSections = .ok (types, taken)) :
    c.declaredTypes.mapM c.declarationSource = .ok types ∧
      c.declaredTypes.mapM (fun decl ↦ c.declaredName decl.name) = .ok taken := by
  simp only [Result.mapM_eq_ok_iff]
  refine Result.foldlM_prefix_induction (fun before state ↦
    List.Forall₂ (fun decl lines ↦ c.declarationSource decl = .ok lines)
      (before.filter fun decl ↦ !decl.isForeign) state.1 ∧
    List.Forall₂ (fun decl name ↦ c.declaredName decl.name = .ok name)
      (before.filter fun decl ↦ !decl.isForeign) state.2) h ⟨.nil, .nil⟩ ?_
  rintro before decl ⟨types, taken⟩ state ⟨htypes, htaken⟩ hstep
  obtain ⟨lines, hlines, hstep⟩ := Result.bind_eq_ok_iff.mp hstep
  rw [List.filter_append, List.filter_singleton]
  obtain ⟨hforeign, rfl⟩ | ⟨hforeign, name, text, hname, hdeclares, -⟩ :=
    declarations_declarationSource hlines
  · obtain rfl := Result.pure_eq_ok_iff.mp hstep
    simpa [hforeign] using And.intro htypes htaken
  · have hne : lines ≠ [] := by
      rintro rfl
      exact absurd hdeclares (by simp [declarations])
    simp only [List.isEmpty_eq_false_iff.mpr hne, hname] at hstep
    obtain rfl := Result.pure_eq_ok_iff.mp hstep
    rw [hforeign]
    exact ⟨List.rel_append htypes (.cons hlines .nil), List.rel_append htaken (.cons hname .nil)⟩

end Context

end XrBindings
