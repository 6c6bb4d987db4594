import XrBindings.Proofs.Bindings.Rejection
import XrBindings.Proofs.Bindings.ZigType
import XrBindings.Proofs.Registry.Extent

/-!
# Types of array members

The extents of an array member stand in the registry as text, and in the bindings as one length in
front of the type of the element. Where the registry is read as a whole, the length denotes the
product of all extents. There are two ways to lose them. The reading may pass over some, and then
nothing reports it. And the extents of a pointer are not written at all. Numbers that are too long
for base ten are not lost: the whole reading fails, though not as that of a malformed document.
-/

namespace XrBindings

open XrBindings.Text XrBindings.Xml XrBindings.Load XrBindings.Number

variable {d : Document} {c : Context} {f : Field} {size type : String} {decl : TypeDecl}
  {e nameChild : Element} {later : List Element} {extents : List Extent}

/-! ## Lengths -/

/-- What a length in Zig denotes, given the values of constants: it is a numeral, or it is how a
constant of the registry is written. -/
inductive Context.LengthDenotes (c : Context) (constants : String → ℕ) : String → ℕ → Prop
  | numeral (n : ℕ) : c.LengthDenotes constants (toString n) n
  | constant {name length : String} (hname : name ∈ c.document.apiConstants.keys)
      (hlength : c.renderer.constantName name = .ok length) :
      c.LengthDenotes constants length (constants name)

theorem Context.LengthDenotes.eq_toString {constants : String → ℕ} {length : String} {n : ℕ}
    (h : c.LengthDenotes constants length n) (hnone : c.document.apiConstants.keys = []) :
    length = toString n := by
  cases h with
  | numeral n => rfl
  | constant hname hlength =>
    rw [hnone] at hname
    exact absurd hname List.not_mem_nil

theorem isDigit_of_asciiDigit {ch : Char} (h : ch.isDigit = true) : isDigit ch = true := by
  rw [isDigit, isDecimalDigit, decimalValue?_of_isDigit h, Option.isSome_some, Bool.true_or]

theorem isDigits_toString (n : ℕ) : isDigits (toString n) = true := by
  have hlist : (toString n).toList = Nat.toDigits 10 n := Nat.toList_repr
  rw [isDigits, Bool.and_eq_true, List.all_eq_true, hlist]
  exact ⟨by simp, fun ch hch ↦
    isDigit_of_asciiDigit (Nat.isDigit_of_mem_toDigits (by decide) (by decide) hch)⟩

/-- The length that is written for all extents denotes their product. -/
theorem Context.lengthDenotes_of_standsForAll {length : String}
    (hextent : isDigits size = true ∨ size ∈ c.document.apiConstants.keys)
    (hsize : StandsForAll size extents) (h : c.arrayLength size = .ok length)
    (constants : String → ℕ) :
    c.LengthDenotes constants length (extents.map (Extent.value constants)).prod := by
  rw [arrayLength] at h
  cases hsize with
  | product n hn =>
    rw [if_pos (isDigits_toString n)] at h
    obtain rfl := Except.ok.inj h
    rw [hn]
    exact .numeral n
  | constant hname =>
    rw [if_neg (by simp [hname])] at h
    have hconstant : c.LengthDenotes constants length (constants size) :=
      .constant (hextent.resolve_left (by simp [hname])) h
    simpa [Extent.value] using hconstant

/-! ## Types -/

theorem Context.fieldType_eq_ok_iff_of_array (hpointers : f.pointers = [])
    (hsize : f.arraySize = some size) :
    c.fieldType f = .ok type ↔ ∃ base length, c.baseType f.typeName = .ok base ∧
      c.arrayLength size = .ok length ∧ type = "[" ++ length ++ "]" ++ base := by
  rw [fieldType, Result.bind_eq_ok_iff]
  refine exists_congr fun base ↦ ?_
  rw [hpointers, hsize, exists_and_left]
  refine and_congr_right fun _ ↦ ?_
  refine Result.bind_eq_ok_iff.trans (exists_congr fun length ↦ and_congr_right fun _ ↦ ?_)
  rw [Result.pure_eq_ok_iff, eq_comm]

/-- The type of a pointer does not depend on extents. -/
theorem Context.fieldType_of_pointers_ne_nil (hpointers : f.pointers ≠ [])
    (extent : Option String) :
    c.fieldType { f with arraySize := extent } = c.fieldType f := by
  obtain ⟨outer, inner, hlevels⟩ := List.exists_cons_of_ne_nil hpointers
  simp [fieldType, hlevels, effectivePointers]

/-! ## The result -/

/-- **Extents of members.** Let the text after the name of a member give extents that are read as a
whole. The member is malformed, or a number among them or their product is too long to be converted,
or it has an extent. In the bindings of an accepted document, where it is a member of a struct or
union, its type is then an array of its base type if it is no pointer; the length denotes the
product of all extents. The type of a pointer has no trace of them. -/
theorem arrayExtents_survive (hafter : AfterName e nameChild later) (hopens : OpensEarly later)
    (hextents : Extents (piecesAfter nameChild later) extents) (hne : extents ≠ [])
    (hread : ReadWhole e extents) :
    Malformed (Load.field e) ∨
    (¬Convertible extents ∧ Load.field e = .error .tooManyDigits) ∨
    (Convertible extents ∧ ∃ f size, Load.field e = .ok f ∧ f.arraySize = some size ∧
      ∀ d c decl, d.Accepted → Context.ofDocument d = .ok c → decl ∈ d.types.values →
        f ∈ decl.layoutFields →
          RejectsOnly TooLong (c.fieldType f) ∧
          (f.pointers = [] → ∀ type, c.fieldType f = .ok type ↔ ∃ base length,
            c.baseType f.typeName = .ok base ∧ c.arrayLength size = .ok length ∧
            type = "[" ++ length ++ "]" ++ base) ∧
          (∀ length, c.arrayLength size = .ok length → ∀ constants,
            c.LengthDenotes constants length (extents.map (Extent.value constants)).prod) ∧
          (f.pointers ≠ [] → c.fieldType { f with arraySize := none } = c.fieldType f)) := by
  obtain hmalformed | ⟨f, hfield⟩ := field_eq_malformed_or_map hafter.child?_eq
  · exact Or.inl hmalformed
  obtain ⟨error, herror, hcode⟩ | ⟨hlong, herror⟩ | ⟨hconvertible, size, hsize, hall⟩ :=
    hread.arraySize_eq hopens hextents hne
  · exact Or.inl ⟨error, by rw [hfield, herror]; rfl, hcode⟩
  · exact Or.inr (Or.inl ⟨hlong, by rw [hfield, herror]; rfl⟩)
  · have hf : Load.field e = .ok { f with arraySize := some size } := by rw [hfield, hsize]; rfl
    refine Or.inr (Or.inr ⟨hconvertible, _, size, hf, rfl, fun d c decl hd hc hdecl hmember ↦ ?_⟩)
    have hclosed := hd.closed hc
    obtain ⟨rfl, -, -⟩ := Context.ofDocument_eq_ok hc
    exact ⟨Context.rejectsOnly_fieldType hclosed (hclosed.knows _ (.member hdecl hmember)),
      fun hpointers type ↦ Context.fieldType_eq_ok_iff_of_array hpointers rfl,
      fun length hlength ↦ Context.lengthDenotes_of_standsForAll
        (hd.isExtent hdecl hmember rfl) hall hlength,
      fun hpointers ↦ Context.fieldType_of_pointers_ne_nil hpointers none⟩

/-- An array with two extents. -/
def cellsMember : Element :=
  ⟨"member", [], "", [
    ⟨"type", [], "float", [], " "⟩, ⟨"name", [], "cells", [], "[2][3]"⟩], ""⟩

/-- An array of pointers. -/
def namesMember : Element :=
  ⟨"member", [], "const ", [
    ⟨"type", [], "char", [], "* "⟩, ⟨"name", [], "names", [], "[4]"⟩], ""⟩

/-- A struct with both arrays. -/
def gridRegistry : Element :=
  ⟨"registry", [], "", [
    ⟨"types", [], "", [
      ⟨"type", [("category", "struct"), ("name", "XrGrid")], "", [cellsMember, namesMember], ""⟩],
      ""⟩], ""⟩

def cellsField : Field where
  name := "cells"
  typeName := "float"
  arraySize := some "6"

def namesField : Field where
  name := "names"
  typeName := "char"
  pointers := [{ nullable := false, constant := true, multiplicity := .nullTerminated }]
  isConst := true
  arraySize := some "4"

def gridStruct : TypeDecl := .struct "XrGrid" [cellsField, namesField] [] false

def gridDocument : Document where
  tags := []
  types := Table.ofList [(some "XrGrid", gridStruct)]
  enums := .empty
  commands := .empty
  commandAliases := .empty
  apiConstants := .empty
  features := []
  extensions := []
  origins := .empty
  version := "unknown"

set_option maxRecDepth 20000 in
theorem gridDocument_accepted : gridDocument.Accepted :=
  ⟨gridRegistry, by with_unfolding_all rfl⟩

theorem exists_ofDocument_gridDocument : ∃ c, Context.ofDocument gridDocument = .ok c :=
  Result.exists_eq_ok_of_isOk (by decide +kernel)

theorem field_cellsMember : Load.field cellsMember = .ok cellsField := by decide +kernel

theorem field_namesMember : Load.field namesMember = .ok namesField := by decide +kernel

/-- Both extents of the array are in its length. -/
theorem arrayExtents_survive_cells :
    AfterName cellsMember ⟨"name", [], "cells", [], "[2][3]"⟩ [] ∧ OpensEarly [] ∧
      Extents (piecesAfter ⟨"name", [], "cells", [], "[2][3]"⟩ []) [.number ['2'], .number ['3']] ∧
      ReadWhole cellsMember [.number ['2'], .number ['3']] ∧
      ∃ c, Context.ofDocument gridDocument = .ok c ∧ c.fieldType cellsField = .ok "[6]f32" ∧
        ∀ constants, c.LengthDenotes constants "6" 6 := by
  have hafter : AfterName cellsMember ⟨"name", [], "cells", [], "[2][3]"⟩ [] :=
    ⟨[⟨"type", [], "float", [], " "⟩], rfl, by simp, rfl⟩
  have hopens : OpensEarly [] := by simp [OpensEarly]
  have hextents : Extents (piecesAfter ⟨"name", [], "cells", [], "[2][3]"⟩ [])
      [.number ['2'], .number ['3']] := by
    have htail : "[2][3]".toList = ['[', '2', ']', '[', '3', ']'] := by decide
    rw [piecesAfter, htail]
    exact .number (isNumeral_singleton rfl) (.number (isNumeral_singleton rfl) .nil)
  have hread : ReadWhole cellsMember [.number ['2'], .number ['3']] := .numbers rfl (by simp)
  obtain ⟨c, hc⟩ := exists_ofDocument_gridDocument
  refine ⟨hafter, hopens, hextents, hread, c, hc, ?_⟩
  have hcells := field_cellsMember
  obtain ⟨error, herror, -⟩ | ⟨-, herror⟩ | ⟨-, f, size, hf, hsize, hall⟩ :=
    arrayExtents_survive hafter hopens hextents (by simp) hread
  · exact absurd (hcells.symm.trans herror) (by simp)
  · exact absurd (hcells.symm.trans herror) (by simp)
  · obtain rfl := Except.ok.inj (hcells.symm.trans hf)
    obtain rfl := Option.some.inj hsize
    obtain ⟨-, htype, hlength, -⟩ := hall gridDocument c gridStruct gridDocument_accepted hc
      (List.mem_singleton_self _) List.mem_cons_self
    have hsix : c.arrayLength "6" = .ok "6" := rfl
    exact ⟨(htype rfl "[6]f32").mpr ⟨"f32", "6", rfl, hsix, rfl⟩, hlength "6" hsix⟩

/-- The array of pointers is written as one pointer, which is no array of four. -/
theorem arrayExtents_lost_names :
    AfterName namesMember ⟨"name", [], "names", [], "[4]"⟩ [] ∧
      Extents (piecesAfter ⟨"name", [], "names", [], "[4]"⟩ []) [.number ['4']] ∧
      gridDocument.Accepted ∧ gridStruct ∈ gridDocument.types.values ∧
      namesField ∈ gridStruct.layoutFields ∧ Load.field namesMember = .ok namesField ∧
      ∃ c, Context.ofDocument gridDocument = .ok c ∧
        c.fieldType namesField = .ok "[*:0]const u8" ∧
        ∀ constants length element, c.LengthDenotes constants length 4 →
          "[*:0]const u8" ≠ "[" ++ length ++ "]" ++ element := by
  obtain ⟨c, hc⟩ := exists_ofDocument_gridDocument
  have hextents : Extents (piecesAfter ⟨"name", [], "names", [], "[4]"⟩ []) [.number ['4']] := by
    have htail : "[4]".toList = ['[', '4', ']'] := by decide
    rw [piecesAfter, htail]
    exact .number (isNumeral_singleton rfl) .nil
  refine ⟨⟨[⟨"type", [], "char", [], "* "⟩], rfl, by simp, rfl⟩, hextents, gridDocument_accepted,
    List.mem_singleton_self _, List.mem_cons_of_mem _ (List.mem_singleton_self _),
    field_namesMember, c, hc, rfl, fun constants length element hlength htype ↦ ?_⟩
  -- Without constants only the numeral denotes four, and the type does not begin with it.
  have hnone : c.document.apiConstants.keys = [] := by
    rw [(Context.ofDocument_eq_ok hc).1]
    rfl
  have hfour : "4" = length := (hlength.eq_toString hnone).symm
  have hchars := congrArg String.toList htype
  rw [← hfour] at hchars
  simp at hchars

end XrBindings
