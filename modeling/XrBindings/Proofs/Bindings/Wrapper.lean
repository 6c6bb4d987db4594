import XrBindings.Proofs.Bindings.Rejection
import XrBindings.Proofs.Bindings.ZigType

/-!
# Wrappers and the functions that they call

The type of a command and the wrapper of a command are written separately: one from all the levels
of indirection of each parameter, the other from the levels behind the outermost one, with a slice
or a local in front of them. They are shown to agree, parameter by parameter. Each parameter of the
command becomes one argument of the call, in order, and what the wrapper passes has the type that
the function takes.
-/

namespace XrBindings

open XrBindings.Text

variable {c : Context} {command : CommandDecl} {s : WrapperSignature} {p : Field}

/-! ## What agrees -/

/-- The type of a slice or pointer to several objects: perhaps null, the mark, perhaps constant. -/
def manyType (nullable : Bool) (mark : String) (constant : Bool) (element : String) : String :=
  (if nullable then "?" else "") ++ mark ++ (if constant then "const " else "") ++ element

/-- The type of a field is the expected one. The link to the next structure of a chain may be null
where the registry does not say so. -/
def Field.HasType (f : Field) (type expected : String) : Prop :=
  type = expected ∨ f.name = "next" ∧ type = "?" ++ expected

/-- The slice of an array in a wrapper: its name, and whether it may be null. -/
structure Context.SliceIs (c : Context) (f : Field) (name : String) (nullable : Bool) : Prop where
  name_eq : c.renderer.fieldName f.name = .ok name
  nullable_eq : ∃ outer inner, f.pointers = outer :: inner ∧ outer.nullable = nullable

/-- The length of a slice, as an operand. One that may be null is unwrapped, and counts as empty
where it is null. -/
def lengthOperand (name : String) (nullable : Bool) : String :=
  if nullable then "(if (" ++ name ++ ") |items| items.len else 0)" else name ++ ".len"

/-- The length of a slice, converted to the type of the count that it is passed for. -/
def convertedLength (name : String) (nullable : Bool) : String :=
  if nullable then "if (" ++ name ++ ") |items| @intCast(items.len) else 0"
  else "@intCast(" ++ name ++ ".len)"

/-- How a wrapper passes a parameter to the command, whose type gives it the type of the field. -/
inductive Context.Passes (c : Context) (s : WrapperSignature) (p : LoweredParam) :
    WrapperPart → Prop where
  /-- A count is the length of the first array that is linked to it, and the body asserts that all
  other arrays have the same length. -/
  | count {first : Field} {others : List Field} {name : String} {nullable : Bool}
      {prologue : List String}
      (helided : p.elided = true)
      (harrays : (s.params.filter (·.lengthParam == some p.param.name)).map (·.param)
        = first :: others)
      (hfirst : c.SliceIs first name nullable)
      (hprologue : List.Forall₂ (fun other line ↦ ∃ name' nullable',
        c.SliceIs other name' nullable' ∧ line = "std.debug.assert(" ++
          lengthOperand name nullable ++ " == " ++ lengthOperand name' nullable' ++ ");")
        others prologue) :
      c.Passes s p { prologue, argument := convertedLength name nullable }
  /-- An array is the pointer of a slice, with the same element type. -/
  | slice {name type element : String} {nullable constant : Bool}
      (helided : p.elided = false) (hlink : p.lengthParam ≠ none)
      (hname : c.SliceIs p.param name nullable)
      (htype : c.fieldType p.param = .ok type)
      (hslice : c.sliceType p.param = .ok (manyType nullable "[]" constant element))
      (hagree : p.param.HasType type (manyType nullable "[*]" constant element)) :
      c.Passes s p {
        param := some (name ++ ": " ++ manyType nullable "[]" constant element)
        argument :=
          if nullable then "if (" ++ name ++ ") |items| items.ptr else null" else name ++ ".ptr" }
  /-- A result is the address of a local, to whose type the parameter points. -/
  | output {name type pointee start : String}
      (helided : p.elided = false) (hlink : p.lengthParam = none)
      (hdirection : p.direction = .output)
      (hname : c.renderer.fieldName p.param.name = .ok name)
      (htype : c.fieldType p.param = .ok type) (hpointee : c.pointeeType p.param = .ok pointee)
      (hagree : p.param.HasType type ("*" ++ pointee)) :
      c.Passes s p {
        prologue := ["var " ++ name ++ ": " ++ pointee ++ " = " ++ start ++ ";"]
        argument := "&" ++ name }
  /-- Anything else is a parameter of the wrapper, with the type of the field. -/
  | value {name type : String}
      (helided : p.elided = false) (hlink : p.lengthParam = none)
      (hdirection : p.direction ≠ .output)
      (hname : c.renderer.fieldName p.param.name = .ok name)
      (htype : c.fieldType p.param = .ok type) :
      c.Passes s p { param := some (name ++ ": " ++ type), argument := name }

/-! ## Types -/

theorem Context.outerPointer_eq_ok_iff {outer : PointerLevel} :
    outerPointer p = .ok outer ↔ ∃ inner, p.pointers = outer :: inner := by
  rw [outerPointer]
  cases p.pointers <;> simp

/-- A linked parameter is written as a pointer to several objects, whose element type is that of its
slice. -/
theorem Context.sliceType_agrees {n type : String} (hp : p.Declared) (hn : p.lengthName? = some n)
    (h : c.sliceType p = .ok type) :
    ∃ level inner base element, p.pointers = level :: inner ∧ c.baseType p.typeName = .ok base ∧
      type = manyType level.nullable "[]" level.constant element ∧
      ∃ raw, c.fieldType p = .ok raw ∧
        p.HasType raw (manyType level.nullable "[*]" level.constant element) := by
  obtain ⟨⟨level, hhead, hmany, -⟩, -⟩ := hp.lengthName?_eq_some_iff.mp hn
  obtain ⟨inner, hpointers⟩ := List.head?_eq_some_iff.mp hhead
  obtain ⟨base, hbase, h⟩ := Result.bind_eq_ok_iff.mp h
  obtain ⟨outer, houter, h⟩ := Result.bind_eq_ok_iff.mp h
  obtain ⟨_, hpointers'⟩ := outerPointer_eq_ok_iff.mp houter
  obtain ⟨rfl, -⟩ := List.cons.inj (hpointers.symm.trans hpointers')
  refine ⟨level, inner, base, elementType base inner, hpointers, hbase, ?_, _,
    fieldType_of_pointers hbase hpointers, ?_⟩
  · rw [← Result.pure_eq_ok_iff.mp h, hpointers, List.drop_one, List.tail_cons]
    rfl
  · -- The name alone may make the pointer null, while the slice goes by the registry.
    by_cases hnext : p.name = "next"
    · have hmark : ({ level with nullable := true } : PointerLevel).multiplicity ≠ .single := by
        simp [hmany]
      rw [if_pos hnext, pointerType_of_ne_single hmark,
        PointerLevel.mark_of_lengthLinked (by exact hmany)]
      cases hnull : level.nullable with
      | true => exact Or.inl rfl
      | false => exact Or.inr ⟨hnext, by simp [manyType, ← String.append_assoc]⟩
    · rw [if_neg hnext, pointerType_of_ne_single (by simp [hmany]),
        PointerLevel.mark_of_lengthLinked hmany]
      exact Or.inl rfl

theorem Context.pointeeType_agrees {pointee : String}
    (hdirection : Direction.classify p none = .output) (h : c.pointeeType p = .ok pointee) :
    ∃ raw, c.fieldType p = .ok raw ∧ p.HasType raw ("*" ++ pointee) := by
  obtain ⟨outer, inner, hpointers, hconstant, hnull, hsingle, hopen⟩ :=
    Direction.of_classify_eq_output hdirection
  obtain ⟨base, hbase, h⟩ := Result.bind_eq_ok_iff.mp h
  have hvoid : inner ≠ [] ∨ base ≠ "void" := hopen.imp_right fun hne heq ↦
    hne (eq_void_of_baseType (heq ▸ hbase))
  refine ⟨_, fieldType_of_pointers hbase hpointers, ?_⟩
  rw [← Result.pure_eq_ok_iff.mp h, hpointers, List.drop_one, List.tail_cons,
    pointerType_of_ne_void hvoid]
  by_cases hnext : p.name = "next"
  · rw [if_pos hnext, PointerLevel.mark_of_single (by exact hsingle)]
    exact Or.inr ⟨hnext, by simp [hconstant, ← String.append_assoc]⟩
  · rw [if_neg hnext, PointerLevel.mark_of_single hsingle]
    exact Or.inl (by simp [hconstant, hnull])

/-! ## Parts -/

theorem Context.SliceIs.unique {name name' : String} {nullable nullable' : Bool}
    (h : c.SliceIs p name nullable) (h' : c.SliceIs p name' nullable') :
    name = name' ∧ nullable = nullable' := by
  obtain ⟨outer, inner, hpointers, rfl⟩ := h.nullable_eq
  obtain ⟨outer', inner', hpointers', rfl⟩ := h'.nullable_eq
  obtain ⟨rfl, -⟩ := List.cons.inj (hpointers.symm.trans hpointers')
  exact ⟨Except.ok.inj (h.name_eq.symm.trans h'.name_eq), rfl⟩

/-- What is written of the name of an array and of its outermost level is written of its slice. -/
theorem Context.sliceText_eq_ok_iff (text : String → Bool → String) {result : String} :
    (do
      let name ← c.renderer.fieldName p.name
      let outer ← outerPointer p
      return text name outer.nullable) = Except.ok result ↔
        ∃ name nullable, c.SliceIs p name nullable ∧ result = text name nullable := by
  simp only [Result.bind_eq_ok_iff, Result.pure_eq_ok_iff, outerPointer_eq_ok_iff]
  constructor
  · rintro ⟨name, hname, outer, ⟨inner, hpointers⟩, rfl⟩
    exact ⟨name, outer.nullable, ⟨hname, outer, inner, hpointers, rfl⟩, rfl⟩
  · rintro ⟨name, nullable, ⟨hname, outer, inner, hpointers, rfl⟩, rfl⟩
    exact ⟨name, hname, outer, ⟨inner, hpointers⟩, rfl⟩

theorem Context.sliceLength_eq_ok_iff {length : String} : c.sliceLength p = .ok length ↔
    ∃ name nullable, c.SliceIs p name nullable ∧ length = lengthOperand name nullable :=
  sliceText_eq_ok_iff lengthOperand

theorem Context.lengthArgument_eq_ok_iff {length : String} : c.lengthArgument p = .ok length ↔
    ∃ name nullable, c.SliceIs p name nullable ∧ length = convertedLength name nullable :=
  sliceText_eq_ok_iff convertedLength

theorem Context.namedParams_arraysWith (hnames : (command.params.map (·.name)).Nodup) (n : String) :
    namedParams (command.params.map command.lowered) ((command.arraysWith n).map (·.name))
      = command.arraysWith n := by
  have hfound : ∀ f ∈ command.arraysWith n,
      (((command.params.map command.lowered).reverse.find? (·.param.name == f.name)).map (·.param))
        = some f := by
    intro f hf
    rw [← List.map_reverse, List.find?_map]
    have hfind := find?_reverse_name hnames (CommandDecl.mem_arraysWith_iff.mp hf).1
    exact (congrArg (Option.map _) (congrArg (Option.map _) hfind))
  rw [namedParams, List.filterMap_map]
  exact (List.filterMap_congr hfound).trans List.filterMap_some

/-- What a count contributes is the length of its first array, and what the others have to be. -/
theorem Context.of_lengthPart_eq_ok {arrays : List Field} {part : WrapperPart}
    (h : c.lengthPart arrays = .ok part) :
    ∃ first others name nullable prologue, arrays = first :: others ∧
      part = { prologue, argument := convertedLength name nullable } ∧
      c.SliceIs first name nullable ∧
      List.Forall₂ (fun other line ↦ ∃ name' nullable',
        c.SliceIs other name' nullable' ∧ line = "std.debug.assert(" ++
          lengthOperand name nullable ++ " == " ++ lengthOperand name' nullable' ++ ");")
        others prologue := by
  cases arrays with
  | nil => exact absurd h (by simp [lengthPart])
  | cons first others =>
    obtain ⟨argument, hargument, h⟩ := Result.bind_eq_ok_iff.mp h
    obtain ⟨prologue, hprologue, h⟩ := Result.bind_eq_ok_iff.mp h
    obtain ⟨name, nullable, hfirst, rfl⟩ := lengthArgument_eq_ok_iff.mp hargument
    refine ⟨first, others, name, nullable, prologue, rfl, (Result.pure_eq_ok_iff.mp h).symm, hfirst,
      (Result.mapM_eq_ok_iff.mp hprologue).imp fun other line hline ↦ ?_⟩
    obtain ⟨a, ha, hline⟩ := Result.bind_eq_ok_iff.mp hline
    obtain ⟨b, hb, hline⟩ := Result.bind_eq_ok_iff.mp hline
    obtain ⟨_, _, hfirst', rfl⟩ := sliceLength_eq_ok_iff.mp ha
    obtain ⟨rfl, rfl⟩ := hfirst.unique hfirst'
    obtain ⟨name', nullable', hother, rfl⟩ := sliceLength_eq_ok_iff.mp hb
    exact ⟨name', nullable', hother, (Result.pure_eq_ok_iff.mp hline).symm⟩

/-- A wrapper passes each parameter as its type asks for. -/
theorem Context.passes_of_wrapperPart (hnames : (command.params.map (·.name)).Nodup)
    (hs : s.params = command.params.map command.lowered) (hp : p.Declared) {part : WrapperPart}
    (h : c.wrapperPart s.params (command.lowered p) = .ok part) :
    c.Passes s (command.lowered p) part := by
  obtain ⟨name, hname, h⟩ := Result.bind_eq_ok_iff.mp h
  split at h
  · next helided =>
    -- The arrays are given by their names, and by these they are found again.
    rw [hs, CommandDecl.lowered, namedParams_arraysWith hnames] at h
    obtain ⟨first, others, name, nullable, prologue, harrays, rfl, hfirst, hprologue⟩ :=
      of_lengthPart_eq_ok h
    refine .count helided ?_ hfirst hprologue
    rw [hs, ← CommandDecl.arraysWith_eq_filter]
    exact harrays
  · next helided =>
    have helided : (command.lowered p).elided = false := by simpa using helided
    split at h
    · next hlink =>
      obtain ⟨n, hn⟩ := Option.isSome_iff_exists.mp hlink
      obtain ⟨type, htype, h⟩ := Result.bind_eq_ok_iff.mp h
      obtain ⟨outer, houter, h⟩ := Result.bind_eq_ok_iff.mp h
      obtain ⟨level, inner, base, element, hpointers, -, rfl, raw, hraw, hagree⟩ :=
        sliceType_agrees hp hn htype
      obtain ⟨_, hpointers'⟩ := outerPointer_eq_ok_iff.mp houter
      obtain ⟨rfl, -⟩ := List.cons.inj (hpointers.symm.trans hpointers')
      rw [← Result.pure_eq_ok_iff.mp h]
      have hslice : c.SliceIs p name level.nullable := ⟨hname, level, inner, hpointers, rfl⟩
      exact .slice helided (by rw [hn]; simp) hslice hraw htype hagree
    · next hlink =>
      have hlink : (command.lowered p).lengthParam = none := by simpa using hlink
      split at h
      · next hdirection =>
        -- A result is classified without a link, so nothing but its outermost level decides.
        obtain ⟨pointee, hpointee, h⟩ := Result.bind_eq_ok_iff.mp h
        obtain ⟨start, -, h⟩ := Result.bind_eq_ok_iff.mp h
        have hdirection : (command.lowered p).direction = .output := by simpa using hdirection
        have houtput : Direction.classify p none = .output := hlink ▸ hdirection
        obtain ⟨raw, hraw, hagree⟩ := pointeeType_agrees houtput hpointee
        rw [← Result.pure_eq_ok_iff.mp h]
        exact .output helided hlink hdirection hname hraw hpointee hagree
      · next hdirection =>
        obtain ⟨type, htype, h⟩ := Result.bind_eq_ok_iff.mp h
        rw [← Result.pure_eq_ok_iff.mp h]
        exact .value helided hlink (by simpa using hdirection) hname htype

/-- The call stands in the first statement after the prologue. -/
theorem Context.of_callAndReturn_eq_ok {call returnType : String} {outputs : List WrapperOutput}
    {statements : List String} (h : c.callAndReturn s call outputs = .ok (returnType, statements)) :
    ∃ before after rest, statements = (before ++ call ++ after) :: rest := by
  rw [callAndReturn] at h
  dsimp only at h
  split at h
  · obtain ⟨errorSet, -, h⟩ := Result.bind_eq_ok_iff.mp h
    obtain ⟨check, -, h⟩ := Result.bind_eq_ok_iff.mp h
    exact ⟨_, _, _, (congrArg Prod.snd (Result.pure_eq_ok_iff.mp h)).symm⟩
  · obtain ⟨raw, -, h⟩ := Result.bind_eq_ok_iff.mp h
    split at h
    · refine ⟨"", ";", (returned outputs).2, ?_⟩
      rw [String.empty_append]
      exact (congrArg Prod.snd (Result.pure_eq_ok_iff.mp h)).symm
    · split at h
      · exact ⟨_, _, _, (congrArg Prod.snd (Result.pure_eq_ok_iff.mp h)).symm⟩
      · exact ⟨_, _, _, (congrArg Prod.snd (Result.pure_eq_ok_iff.mp h)).symm⟩

/-! ## Wrappers exist -/

theorem Context.functionType_eq_ok_iff {returns : Field} {params : List Field} {type : String} :
    c.functionType returns params = .ok type ↔ ∃ typed result,
      List.Forall₂ (fun p t ↦ ∃ name type, c.renderer.fieldName p.name = .ok name ∧
        c.fieldType p = .ok type ∧ t = name ++ ": " ++ type) params typed ∧
      c.fieldType returns = .ok result ∧
      type = "*const fn (" ++ joinWith ", " typed ++ ") callconv(.c) " ++ result := by
  simp only [functionType, typedName, Result.bind_eq_ok_iff, Result.pure_eq_ok_iff,
    Result.mapM_eq_ok_iff, @eq_comm String _ type]
  constructor
  · rintro ⟨typed, htyped, result, hresult, rfl⟩
    refine ⟨typed, result, htyped.imp ?_, hresult, rfl⟩
    rintro p t ⟨name, hname, type, htype, rfl⟩
    exact ⟨name, type, hname, htype, rfl⟩
  · rintro ⟨typed, result, htyped, hresult, rfl⟩
    refine ⟨typed, htyped.imp ?_, result, hresult, rfl⟩
    rintro p t ⟨name, type, hname, htype, rfl⟩
    exact ⟨name, hname, type, htype, rfl⟩

/-- A field has a name and a type in Zig. -/
def Context.Writes (c : Context) (f : Field) : Prop :=
  ∃ name type, c.renderer.fieldName f.name = .ok name ∧ c.fieldType f = .ok type

theorem Context.exists_outerPointer (h : p.pointers ≠ []) :
    ∃ outer, outerPointer p = .ok outer := by
  obtain ⟨outer, inner, hpointers⟩ := List.exists_cons_of_ne_nil h
  exact ⟨outer, outerPointer_eq_ok_iff.mpr ⟨inner, hpointers⟩⟩

theorem Context.Writes.exists_sliceIs (h : c.Writes p) (hp : p.pointers ≠ []) :
    ∃ name nullable, c.SliceIs p name nullable := by
  obtain ⟨name, -, hname, -⟩ := h
  obtain ⟨outer, inner, hpointers⟩ := List.exists_cons_of_ne_nil hp
  exact ⟨name, outer.nullable, hname, outer, inner, hpointers, rfl⟩

theorem Context.exists_lengthPart {arrays : List Field} (hne : arrays ≠ [])
    (h : ∀ f ∈ arrays, c.Writes f ∧ f.pointers ≠ []) : ∃ part, c.lengthPart arrays = .ok part := by
  obtain ⟨first, others, rfl⟩ := List.exists_cons_of_ne_nil hne
  rw [List.forall_mem_cons] at h
  obtain ⟨name, nullable, hfirst⟩ := h.1.1.exists_sliceIs h.1.2
  rw [lengthPart, lengthArgument_eq_ok_iff.mpr ⟨name, nullable, hfirst, rfl⟩, Result.ok_bind,
    sliceLength_eq_ok_iff.mpr ⟨name, nullable, hfirst, rfl⟩]
  obtain ⟨prologue, hprologue⟩ := Result.exists_mapM_bind_eq_ok
    (f := fun other ↦ c.sliceLength other)
    (k := fun _ b ↦ "std.debug.assert(" ++ lengthOperand name nullable ++ " == " ++ b ++ ");")
    fun other hother ↦ by
      obtain ⟨name', nullable', hslice⟩ := (h.2 other hother).1.exists_sliceIs (h.2 other hother).2
      exact ⟨_, sliceLength_eq_ok_iff.mpr ⟨name', nullable', hslice, rfl⟩⟩
  exact ⟨_, Result.bind_eq_ok_iff.mpr ⟨prologue, hprologue, rfl⟩⟩

theorem Context.exists_outputStart (hc : c.Closed) (f : Field) (pointee : String) :
    ∃ start, c.outputStart f pointee = .ok start := by
  rw [outputStart]
  split
  · have hterminal : ∃ decl?, c.terminal? f.typeName = .ok decl? := by
      rw [terminal?]
      split
      · next hdeclared =>
        obtain ⟨target, htarget⟩ :=
          hc.aliasTarget_ok (some f.typeName) ((Table.contains_iff _ _).mp hdeclared)
        exact ⟨_, by rw [htarget]; rfl⟩
      · exact ⟨none, rfl⟩
    obtain ⟨decl?, hdecl⟩ := hterminal
    rw [hdecl]
    cases decl? <;> exact ⟨_, rfl⟩
  · exact ⟨_, rfl⟩

theorem Context.exists_wrapperPart (hc : c.Closed) (hnames : (command.params.map (·.name)).Nodup)
    (hs : s.params = command.params.map command.lowered) (hp : p ∈ command.params)
    (h : ∀ f ∈ command.params, c.Writes f) :
    ∃ part, c.wrapperPart s.params (command.lowered p) = .ok part := by
  obtain ⟨name, type, hname, htype⟩ := h p hp
  obtain ⟨base, hbase⟩ := exists_baseType_of_fieldType htype
  have hparam : (command.lowered p).param = p := rfl
  rw [wrapperPart]
  simp only [hparam, hname, Result.ok_bind]
  split
  · next helided =>
    -- A length is elided for an array, so there is a first one.
    obtain ⟨array, harray, hlength⟩ := CommandDecl.elided_lowered_iff.mp helided
    rw [hs, CommandDecl.lowered, namedParams_arraysWith hnames]
    refine exists_lengthPart
      (List.ne_nil_of_mem (CommandDecl.mem_arraysWith_iff.mpr ⟨harray, hlength⟩)) fun f hf ↦ ?_
    obtain ⟨hf, hlength⟩ := CommandDecl.mem_arraysWith_iff.mp hf
    exact ⟨h f hf, (Field.lengthName?_eq_some_iff.mp hlength).1⟩
  · split
    · next hlink =>
      obtain ⟨n, hn⟩ := Option.isSome_iff_exists.mp hlink
      obtain ⟨outer, houter⟩ := exists_outerPointer (Field.lengthName?_eq_some_iff.mp hn).1
      simp only [sliceType, hbase, houter, Result.ok_bind]
      exact ⟨_, rfl⟩
    · split
      · obtain ⟨start, hstart⟩ := exists_outputStart hc p (pointerType base (p.pointers.drop 1))
        rw [pointeeType, hbase, Result.ok_bind]
        exact ⟨_, by rw [Result.bind_eq_ok_iff]; exact ⟨_, rfl, by rw [hstart]; rfl⟩⟩
      · rw [htype]
        exact ⟨_, rfl⟩

theorem Context.exists_callAndReturn (call : String) (outputs : List WrapperOutput)
    {result : String} (hresult : c.fieldType s.command.returns = .ok result)
    (hpartition : ∀ p, s.partition = some p → ∃ type, c.declaredName (some p.enumName) = .ok type) :
    ∃ returned, c.callAndReturn s call outputs = .ok returned := by
  rw [callAndReturn]
  dsimp only
  split
  · next p hp =>
    obtain ⟨type, htype⟩ := hpartition p hp
    rw [errorSetName, checkName, htype]
    exact ⟨_, rfl⟩
  · rw [hresult, Result.ok_bind]
    split
    · exact ⟨_, rfl⟩
    · split <;> exact ⟨_, rfl⟩

/-- Where the type of a command is written, and the names of its wrapper are, so is the wrapper. -/
theorem Context.exists_wrapperSource (hc : c.Closed) (hnames : (command.params.map (·.name)).Nodup)
    (hs : s.params = command.params.map command.lowered) (hcommand : s.command = command)
    {type name : String} (htype : c.functionType command.returns command.params = .ok type)
    (hname : c.renderer.commandName command.name = .ok name)
    (hpartition : ∀ p, s.partition = some p → ∃ type, c.declaredName (some p.enumName) = .ok type) :
    ∃ lines, c.wrapperSource s = .ok lines := by
  obtain ⟨args, hargs, htype⟩ := Result.bind_eq_ok_iff.mp htype
  obtain ⟨result, hresult, -⟩ := Result.bind_eq_ok_iff.mp htype
  have hwrites : ∀ f ∈ command.params, c.Writes f := by
    intro f hf
    obtain ⟨t, -, ht⟩ := Result.exists_of_mapM hargs hf
    obtain ⟨name, hname, ht⟩ := Result.bind_eq_ok_iff.mp ht
    obtain ⟨type, htype, -⟩ := Result.bind_eq_ok_iff.mp ht
    exact ⟨name, type, hname, htype⟩
  have hparts : ∀ q ∈ s.params, ∃ part, c.wrapperPart s.params q = .ok part := by
    intro q hq
    rw [hs] at hq
    obtain ⟨p, hp, rfl⟩ := List.mem_map.mp hq
    exact exists_wrapperPart hc hnames hs hp hwrites
  have houtputs : ∀ q ∈ s.outputs, ∃ output, (do
      let name ← c.renderer.fieldName q.param.name
      let type ← c.pointeeType q.param
      return ({ name, type } : WrapperOutput)) = .ok output := by
    intro q hq
    have hq := (List.mem_filter.mp hq).1
    rw [hs] at hq
    obtain ⟨p, hp, rfl⟩ := List.mem_map.mp hq
    obtain ⟨name, type, hname, htype⟩ := hwrites p hp
    obtain ⟨base, hbase⟩ := exists_baseType_of_fieldType htype
    have hparam : (command.lowered p).param = p := rfl
    rw [hparam, hname, Result.ok_bind, pointeeType, hbase]
    exact ⟨_, rfl⟩
  obtain ⟨parts, hparts⟩ := Result.exists_mapM_eq_ok hparts
  obtain ⟨outputs, houtputs⟩ := Result.exists_mapM_eq_ok houtputs
  obtain ⟨⟨returnType, statements⟩, hcall⟩ := exists_callAndReturn
    ("self." ++ s.command.name ++ ".?(" ++ joinWith ", " (parts.map (·.argument)) ++ ")") outputs
    (hcommand ▸ hresult) hpartition
  rw [wrapperSource, hparts, Result.ok_bind, houtputs, Result.ok_bind, hcall, Result.ok_bind,
    hcommand, hname]
  exact ⟨_, rfl⟩

/-- **Wrappers agree with the functions that they call.** Let a command of an accepted document have
a signature, and let its parameters have different names. Its wrapper exists where the type of the
function and the names are written. It calls the function with one argument for each parameter, in
order, and passes each as its type in the type of the function asks for. -/
theorem wrapper_agrees {d : Document} (hd : d.Accepted) (hc : Context.ofDocument d = .ok c)
    (hcommand : command ∈ d.commands.values) (hnames : (command.params.map (·.name)).Nodup)
    (hs : command.lower c.partitions = .ok s) :
    (∀ type name, c.functionType command.returns command.params = .ok type →
      c.renderer.commandName command.name = .ok name →
      (∀ p, s.partition = some p → ∃ enumType, c.declaredName (some p.enumName) = .ok enumType) →
      ∃ lines, c.wrapperSource s = .ok lines) ∧
    (∀ type, c.functionType command.returns command.params = .ok type → ∃ typed result,
      List.Forall₂ (fun p t ↦ ∃ name type, c.renderer.fieldName p.name = .ok name ∧
        c.fieldType p = .ok type ∧ t = name ++ ": " ++ type) command.params typed ∧
      c.fieldType command.returns = .ok result ∧
      type = "*const fn (" ++ joinWith ", " typed ++ ") callconv(.c) " ++ result) ∧
    s.params.map (·.param) = command.params ∧
    ∀ lines, c.wrapperSource s = .ok lines → ∃ parts name returnType before after rest,
      List.Forall₂ (c.Passes s) s.params parts ∧
      lines = ["    pub fn " ++ name ++ "(" ++
          joinWith ", " ("self: Dispatch" :: parts.filterMap (·.param)) ++ ") " ++ returnType ++
          " \x7b"] ++
        ((parts.map (·.prologue)).flatten ++
          (before ++ ("self." ++ command.name ++ ".?(" ++
            joinWith ", " (parts.map (·.argument)) ++ ")") ++ after) :: rest).map
          ("        " ++ ·) ++
        ["    \x7d"] := by
  have hclosed := hd.closed hc
  have hparams : s.params = command.params.map command.lowered := by
    have hlower := CommandDecl.lower_eq_ok hnames (CommandDecl.unambiguous_of_lower hnames hs)
      c.partitions
    rw [hs] at hlower
    rw [Except.ok.inj hlower]
  obtain ⟨hsame, horder⟩ := CommandDecl.of_lower_eq_ok hs
  refine ⟨fun type name htype hname hpartition ↦ Context.exists_wrapperSource hclosed hnames hparams
    hsame htype hname hpartition, fun type ↦ Context.functionType_eq_ok_iff.mp, horder,
    fun lines hlines ↦ ?_⟩
  obtain ⟨parts, hparts, hlines⟩ := Result.bind_eq_ok_iff.mp hlines
  obtain ⟨outputs, -, hlines⟩ := Result.bind_eq_ok_iff.mp hlines
  obtain ⟨⟨returnType, statements⟩, hcall, hlines⟩ := Result.bind_eq_ok_iff.mp hlines
  obtain ⟨name, -, hlines⟩ := Result.bind_eq_ok_iff.mp hlines
  obtain ⟨before, after, rest, rfl⟩ := Context.of_callAndReturn_eq_ok hcall
  refine ⟨parts, name, returnType, before, after, rest, ?_, ?_⟩
  · have hpasses : ∀ q ∈ s.params, ∀ part, c.wrapperPart s.params q = .ok part →
        c.Passes s q part := by
      intro q hq part hpart
      rw [hparams] at hq
      obtain ⟨p, hp, rfl⟩ := List.mem_map.mp hq
      exact Context.passes_of_wrapperPart hnames hparams
        (hd.declared_of_mem_params hcommand hp) hpart
    refine ((List.forall₂_and_left s.params parts).mpr
      ⟨hpasses, Result.mapM_eq_ok_iff.mp hparts⟩).imp ?_
    exact fun q part hpart ↦ hpart.1 part hpart.2
  · rw [← Result.pure_eq_ok_iff.mp hlines, hsame]

def fillContext : Context where
  document := fillDocument
  graph := { order := [], canonical := .empty, aliases := [] }
  renderer := ⟨[]⟩
  partitions := .empty
  flagOwners := .empty

set_option maxRecDepth 10000 in
/-- The wrapper of the command that fills an array from another exists. -/
theorem wrapper_agrees_fill :
    fillDocument.Accepted ∧ Context.ofDocument fillDocument = .ok fillContext ∧
      fillCommand ∈ fillDocument.commands.values ∧ (fillCommand.params.map (·.name)).Nodup ∧
      ∃ s, fillCommand.lower fillContext.partitions = .ok s ∧
        ∃ lines parts, fillContext.wrapperSource s = .ok lines ∧
          List.Forall₂ (fillContext.Passes s) s.params parts := by
  have haccepted : fillDocument.Accepted := ⟨fillRegistry, by with_unfolding_all rfl⟩
  have hcontext : Context.ofDocument fillDocument = .ok fillContext := by with_unfolding_all rfl
  have hmem : fillCommand ∈ fillDocument.commands.values := List.mem_singleton_self _
  have hnames : (fillCommand.params.map (·.name)).Nodup := by decide
  have hlower := CommandDecl.lower_eq_ok hnames unambiguous_fillCommand fillContext.partitions
  refine ⟨haccepted, hcontext, hmem, hnames, _, hlower, ?_⟩
  obtain ⟨hexists, -, -, hparts⟩ := wrapper_agrees haccepted hcontext hmem hnames hlower
  have hname : fillContext.renderer.commandName "xrFill" = .ok "fill" := by decide +kernel
  have htype : fillContext.functionType fillCommand.returns fillCommand.params
      = .ok "*const fn (source: [*]const f32, count: u32, target: [*]f32) callconv(.c) void" := by
    decide +kernel
  obtain ⟨lines, hlines⟩ := hexists _ _ htype hname fun p hp ↦
    absurd hp (by simp [fillContext, fillCommand, Table.get?, Table.empty])
  obtain ⟨parts, -, -, -, -, -, hpasses, -⟩ := hparts lines hlines
  exact ⟨lines, parts, hlines, hpasses⟩

end XrBindings
