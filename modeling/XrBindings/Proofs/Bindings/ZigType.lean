import XrBindings.Bindings.ZigType
import XrBindings.Proofs.Result

/-!
# Pointers in Zig

A pointer type is the mark of the outermost level followed by what stands behind it. What stands
behind a level is written without that level, with one exception: nothing can be behind a pointer
that is `void`, and the innermost level decides what is written instead. So the type of a parameter,
of the local that stands for it, and of the slice that stands for it agree behind the outermost
level as long as they agree about `void`. A written type is `void` only if it is that of the C type
`void`, because no identifier is written like a primitive type, and no pointer type is.
-/

namespace XrBindings

/-! ## Behind the outermost level -/

namespace PointerLevel

variable {level : PointerLevel}

/-- Every mark starts with a sign that no word starts with. -/
theorem mark_append_ne_void (level : PointerLevel) (s : String) : level.mark ++ s ≠ "void" := by
  intro h
  have hchars := congrArg String.toList h
  obtain ⟨nullable, constant, multiplicity, length⟩ := level
  rw [mark, String.toList_append] at hchars
  cases nullable <;> cases multiplicity <;> simp at hchars

theorem mark_of_single (h : level.multiplicity = .single) :
    level.mark = (if level.nullable then "?" else "") ++ "*" ++
      if level.constant then "const " else "" := by rw [mark, h]

theorem mark_of_lengthLinked (h : level.multiplicity = .lengthLinked) :
    level.mark = (if level.nullable then "?" else "") ++ "[*]" ++
      if level.constant then "const " else "" := by rw [mark, h]

end PointerLevel

variable {base : String} {level : PointerLevel} {inner : List PointerLevel}

theorem pointerType_cons_ne_void : pointerType base (level :: inner) ≠ "void" := by
  cases inner with
  | nil => exact level.mark_append_ne_void _
  | cons level' inner => exact level.mark_append_ne_void _

/-- What an array holds: bytes where C leaves the type open. -/
def elementType (base : String) (inner : List PointerLevel) : String :=
  if pointerType base inner == "void" then "u8" else pointerType base inner

theorem pointerType_of_ne_single (h : level.multiplicity ≠ .single) :
    pointerType base (level :: inner) = level.mark ++ elementType base inner := by
  cases inner with
  | nil => simp [pointerType, PointerLevel.pointee, elementType, h]
  | cons level' inner => simp [pointerType, elementType, pointerType_cons_ne_void]

theorem pointerType_of_ne_void (h : inner ≠ [] ∨ base ≠ "void") :
    pointerType base (level :: inner) = level.mark ++ pointerType base inner := by
  cases inner with
  | nil =>
    have hbase : base ≠ "void" := h.resolve_left (by simp)
    simp [pointerType, PointerLevel.pointee, hbase]
  | cons level' inner => rfl

/-! ## The C type `void` -/

/-- No identifier is written like a primitive type. -/
theorem Zig.writeIdentifier_ne_void (name : String) : Zig.writeIdentifier name ≠ "void" := by
  intro h
  rw [Zig.writeIdentifier] at h
  split at h
  · have hchars := congrArg String.toList h
    simp [Zig.quoteIdentifier] at hchars
  · next hplain =>
    rw [h] at hplain
    exact hplain (by decide)

theorem Naming.Renderer.typeName_ne_void {r : Naming.Renderer} {name type : String}
    (h : r.typeName name = .ok type) : type ≠ "void" := by
  rw [typeName] at h
  split at h
  · obtain ⟨body, -, rfl⟩ := Result.map_eq_ok_iff.mp h
    exact Zig.writeIdentifier_ne_void _
  · split at h
    · rw [← Except.ok.inj h]
      exact Zig.writeIdentifier_ne_void _
    · obtain ⟨body, -, rfl⟩ := Result.map_eq_ok_iff.mp h
      exact Zig.writeIdentifier_ne_void _

namespace Context

variable {c : Context} {f : Field} {n : String}

theorem eq_void_of_baseType (h : c.baseType n = .ok "void") : n = "void" := by
  rw [baseType] at h
  split at h
  · next type hlookup =>
    obtain rfl := Except.ok.inj h
    obtain ⟨before, after, hsplit, -⟩ := List.lookup_eq_some_iff.mp hlookup
    have hmem : (n, "void") ∈ Zig.cTypes := by simp [hsplit]
    simpa [Zig.cTypes] using hmem
  · split at h
    · next type hlookup =>
      obtain rfl := Except.ok.inj h
      obtain ⟨before, after, hsplit, -⟩ := List.lookup_eq_some_iff.mp hlookup
      have hmem : (n, "void") ∈ Zig.platformTypes := by simp [hsplit]
      simp [Zig.platformTypes, Zig.anyPointer, Zig.procFinder] at hmem
    · split at h
      · obtain ⟨spelling, -, h⟩ := Result.bind_eq_ok_iff.mp h
        exact absurd rfl (Naming.Renderer.typeName_ne_void h)
      · exact absurd h Result.reject_ne_ok

/-! ## Types of pointer fields -/

/-- A field may be null by its name alone. -/
theorem effectivePointers_eq {outer : PointerLevel} (h : f.pointers = outer :: inner) :
    effectivePointers f = (if f.name = "next" then { outer with nullable := true } else outer)
      :: inner := by
  rw [effectivePointers, h]
  by_cases hnext : f.name = "next" <;> simp [hnext]

theorem fieldType_of_pointers {base : String} {outer : PointerLevel}
    (hbase : c.baseType f.typeName = .ok base) (h : f.pointers = outer :: inner) :
    c.fieldType f = .ok (pointerType base
      ((if f.name = "next" then { outer with nullable := true } else outer) :: inner)) := by
  rw [fieldType, hbase, ← effectivePointers_eq h]
  simp [h, bind, Except.bind, pure, Except.pure]

theorem exists_baseType_of_fieldType {type : String} (h : c.fieldType f = .ok type) :
    ∃ base, c.baseType f.typeName = .ok base := by
  obtain ⟨base, hbase, -⟩ := Result.bind_eq_ok_iff.mp h
  exact ⟨base, hbase⟩

end Context

end XrBindings
