import XrBindings.Bindings.ZigType
import XrBindings.Proofs.Registry.Declarator

/-!
# Pointer declarators in Zig

What a C declarator says level by level is said again by the pointer type in Zig, but in the other
order: C writes the outermost star last, Zig its mark first. The entries for the levels, their
lengths and whether they may be null, are listed from the outermost in the registry, and the type
behind all levels is a matter of the innermost one alone.
-/

namespace XrBindings

open XrBindings.Text

/-! ## Signs -/

/-- The sign of a pointer for how many objects it points to. -/
def Multiplicity.sign : Multiplicity → String
  | .single => "*"
  | .nullTerminated => "[*:0]"
  | .fixedArray | .lengthLinked => "[*]"

theorem Multiplicity.sign_eq_iff {m : Multiplicity} : m.sign = "*" ↔ m = .single := by
  cases m <;> decide

namespace PointerLevel

variable {type : String}

theorem mark_eq (level : PointerLevel) :
    level.mark = (if level.nullable then "?" else "") ++ level.multiplicity.sign ++
      if level.constant then "const " else "" := by
  cases h : level.multiplicity <;> simp [mark, Multiplicity.sign, h]

/-- What stands behind all levels, given the sign of the innermost one: C leaves open what `void`
is. -/
def behindSign (sign type : String) : String :=
  if type = "void" then if sign = "*" then "anyopaque" else "u8" else type

theorem pointee_eq (level : PointerLevel) (type : String) :
    level.pointee type = behindSign level.multiplicity.sign type := by
  simp only [pointee, behindSign, beq_iff_eq, Multiplicity.sign_eq_iff]

end PointerLevel

/-- A pointer type is the marks of its levels, and then what stands behind the innermost one. -/
theorem pointerType_eq_join (type : String) {levels : List PointerLevel} (h : levels ≠ []) :
    pointerType type levels
      = String.join (levels.map PointerLevel.mark) ++ (levels.getLast h).pointee type := by
  induction levels with
  | nil => exact absurd rfl h
  | cons level inner ih =>
    cases inner with
    | nil => simp [pointerType]
    | cons next inner =>
      have hinner : next :: inner ≠ [] := by simp
      have hmarks : String.join ((level :: next :: inner).map PointerLevel.mark)
          = level.mark ++ String.join ((next :: inner).map PointerLevel.mark) := String.join_cons
      calc pointerType type (level :: next :: inner)
          = level.mark ++ pointerType type (next :: inner) := rfl
        _ = level.mark ++ (String.join ((next :: inner).map PointerLevel.mark)
              ++ ((next :: inner).getLast hinner).pointee type) := by rw [ih hinner]
        _ = String.join ((level :: next :: inner).map PointerLevel.mark)
              ++ ((level :: next :: inner).getLast h).pointee type := by
          rw [hmarks, String.append_assoc, List.getLast_cons hinner]

namespace Declarator

variable {typeName : String} {innermost constant : Bool} {before after : List Char} {base : Bool}
  {qs : List Bool}

/-! ## What is written for a level -/

/-- The sign for how many objects stand behind a level, given its entry among the lengths. Without
an entry it is one object, unless constant characters stand behind the innermost level. -/
def countSign (typeName : String) (innermost constant : Bool) : Option String → String
  | none => if innermost ∧ constant ∧ typeName = "char" then "[*:0]" else "*"
  | some entry => if entry = "null-terminated" then "[*:0]" else if entry = "1" then "*" else "[*]"

/-- What is written for a level, given its entries among the lengths and the marks for null. -/
def levelText (typeName : String) (innermost constant : Bool) (entry mark : Option String) :
    String :=
  (if mark = some "true" then "?" else "") ++ countSign typeName innermost constant entry ++
    if constant then "const " else ""

/-- What is written for each of the levels, outermost first. -/
def levelTexts (typeName : String) (constness : List Bool) (lengths marks : List String) :
    List String :=
  constness.mapIdx fun i constant ↦
    levelText typeName (i + 1 == constness.length) constant lengths[i]? marks[i]?

theorem pointerLevel_sign (nullable : Bool) (entry : Option String) :
    (pointerLevel typeName innermost constant nullable entry).multiplicity.sign
      = countSign typeName innermost constant entry := by
  cases entry with
  | none =>
    by_cases hchars : innermost ∧ constant ∧ typeName = "char"
    · obtain ⟨rfl, rfl, rfl⟩ := hchars
      rfl
    · have hbool : (innermost && typeName == "char" && constant) = false := by
        rw [Bool.eq_false_iff]
        simpa [and_assoc, and_comm (a := typeName = "char")] using hchars
      rw [countSign, if_neg hchars, pointerLevel, hbool]
      rfl
  | some entry =>
    simp only [pointerLevel, countSign, beq_iff_eq]
    split_ifs <;> rfl

theorem pointerLevel_nullable (nullable : Bool) (entry : Option String) :
    (pointerLevel typeName innermost constant nullable entry).nullable = nullable := by
  cases entry <;> (rw [pointerLevel]; split_ifs <;> rfl)

theorem pointerLevel_constant (nullable : Bool) (entry : Option String) :
    (pointerLevel typeName innermost constant nullable entry).constant = constant := by
  cases entry <;> (rw [pointerLevel]; split_ifs <;> rfl)

theorem pointerLevel_mark (entry mark : Option String) :
    (pointerLevel typeName innermost constant (mark == some "true") entry).mark
      = levelText typeName innermost constant entry mark := by
  rw [PointerLevel.mark_eq, pointerLevel_sign, pointerLevel_nullable, pointerLevel_constant,
    levelText]
  simp only [beq_iff_eq]

/-! ## Pointer types -/

variable {constness : List Bool} {length optional : Option String}

theorem map_mark_pointerInfos (typeName : String) (constness : List Bool)
    (length optional : Option String) :
    (pointerInfos typeName constness length optional).map PointerLevel.mark
      = levelTexts typeName constness (listAttribute length) (listAttribute optional) := by
  refine List.ext_getElem? fun i ↦ ?_
  simp only [pointerInfos, levelTexts, List.getElem?_map, List.getElem?_mapIdx, Option.map_map,
    Function.comp_def, pointerLevel_mark]

theorem getLast_pointerInfos_sign (h : pointerInfos typeName constness length optional ≠ [])
    (hlast : constness.getLast? = some base) :
    ((pointerInfos typeName constness length optional).getLast h).multiplicity.sign
      = countSign typeName true base (listAttribute length)[constness.length - 1]? := by
  obtain ⟨outer, rfl⟩ := List.getLast?_eq_some_iff.mp hlast
  simp only [pointerInfos, List.getLast_mapIdx, pointerLevel_sign]
  simp

/-- **Pointer declarators keep their meaning.** Let `const` stand in front of a type or not, and
behind the type at least one star, each with `const` behind it or not. Then there is a level for
each star. What is constant, from the outermost level, is what the stars but the last one say, in
reverse, and then the base type. Whatever the entries for the levels are, the pointer type is what
they ask for level by level, and then the base type, or what the innermost sign makes of `void`. -/
theorem pointerType_of_stars (typeName type : String) (length optional : Option String)
    (hbase : base = true ↔ HoldsWord constWord before) (hafter : Stars qs after) (hne : qs ≠ []) :
    pointerLevels before after = (base, qs.dropLast.reverse ++ [base]) ∧
      pointerType type (pointerInfos typeName (pointerLevels before after).2 length optional)
        = String.join (levelTexts typeName (qs.dropLast.reverse ++ [base]) (listAttribute length)
            (listAttribute optional))
          ++ PointerLevel.behindSign
            (countSign typeName true base (listAttribute length)[qs.length - 1]?) type := by
  have hlevels := pointerLevels_of_stars hbase hafter hne
  refine ⟨hlevels, ?_⟩
  have hinfos : pointerInfos typeName (qs.dropLast.reverse ++ [base]) length optional ≠ [] := by
    simp [pointerInfos]
  have hdepth : (qs.dropLast.reverse ++ [base]).length - 1 = qs.length - 1 := by simp
  rw [hlevels, pointerType_eq_join type hinfos, map_mark_pointerInfos, PointerLevel.pointee_eq,
    getLast_pointerInfos_sign hinfos List.getLast?_concat, hdepth]

/-- The entries are for the outer level, and the text ends in a zero without one. -/
theorem pointerType_of_stars_twofold :
    (true = true ↔ HoldsWord constWord "const ".toList) ∧
      Stars [true, false] " * const*".toList ∧ [true, false] ≠ [] ∧
      pointerLevels "const ".toList " * const*".toList = (true, [true, true]) ∧
      pointerType "u8" (pointerInfos "char"
        (pointerLevels "const ".toList " * const*".toList).2 (some "1") (some "true"))
          = "?*const [*:0]const u8" := by
  have hblank : isBlank ' ' = true := by decide
  have hbase : true = true ↔ HoldsWord constWord "const ".toList :=
    iff_of_true rfl ⟨[], [' '], by decide, by simp, by simp [hblank]⟩
  have hafter : Stars [true, false] " * const*".toList :=
    .constant [' '] [' '] (by simp [hblank]) (by simp [hblank])
      (.plain [] (by simp) (.nil [] (by simp)))
  obtain ⟨hlevels, htype⟩ := pointerType_of_stars "char" "u8" (some "1") (some "true") hbase hafter
    (by decide)
  exact ⟨hbase, hafter, by decide, hlevels, htype.trans (by decide +kernel)⟩

end Declarator

end XrBindings
