import XrBindings.Proofs.Flags.Algebra

/-!
# Fields of a set of flags

Every bit of the storage is a field, and it has the name of its flag if it has one. If no two flags
share a bit and all bits fit into the storage, each flag is found at its field, and nowhere else.
-/

namespace XrBindings.FlagLayout

variable {l : FlagLayout} {f : String} {p : ℕ}

theorem mem_of_flagAt? (h : l.flagAt? p = some f) : (f, p) ∈ l.bits := by
  obtain ⟨b, hb, rfl⟩ := Option.map_eq_some_iff.mp h
  have hposition : b.2 = p := by simpa using List.find?_some hb
  exact hposition ▸ List.mem_reverse.mp (List.mem_of_find?_eq_some hb)

theorem flagAt?_eq_some_iff (hpositions : (l.bits.map (·.2)).Nodup) :
    l.flagAt? p = some f ↔ (f, p) ∈ l.bits := by
  refine ⟨mem_of_flagAt?, fun hmem ↦ Option.map_eq_some_iff.mpr ?_⟩
  cases hfound : l.bits.reverse.find? (·.2 == p) with
  | none =>
    have hnone := List.find?_eq_none.mp hfound (f, p) (List.mem_reverse.mpr hmem)
    exact absurd hnone (by simp)
  | some b =>
    have hb : b ∈ l.bits := List.mem_reverse.mp (List.mem_of_find?_eq_some hfound)
    have hposition : b.2 = p := by simpa using List.find?_some hfound
    exact ⟨b, rfl, congrArg Prod.fst (List.inj_on_of_nodup_map hpositions hb hmem hposition)⟩

section

variable (hlt : ∀ b ∈ l.bits, (b.2 : Int) < l.width)

include hlt

theorem lt_width_of_mem (h : (f, p) ∈ l.bits) : p < l.width.toNat := by
  have hp := hlt (f, p) h
  omega

theorem definedMask_lt : l.definedMask < 2 ^ l.width.toNat := by
  refine Nat.lt_pow_two_of_testBit _ fun i hi ↦ Bool.eq_false_iff.mpr fun hnamed ↦ ?_
  obtain ⟨f, hf⟩ := testBit_definedMask.mp hnamed
  exact absurd (lt_width_of_mem hlt hf) (not_lt.mpr hi)

variable (hpositions : (l.bits.map (·.2)).Nodup)

include hpositions

theorem mem_fields_iff : (p, some f) ∈ l.fields ↔ (f, p) ∈ l.bits := by
  simp only [fields, List.mem_map, List.mem_range, Prod.mk.injEq]
  constructor
  · rintro ⟨i, -, rfl, hi⟩
    exact (flagAt?_eq_some_iff hpositions).mp hi
  · intro h
    exact ⟨p, lt_width_of_mem hlt h, rfl, (flagAt?_eq_some_iff hpositions).mpr h⟩

/-- **A flag is one field.** -/
theorem filter_fields_eq (hnames : (l.bits.map (·.1)).Nodup) (h : (f, p) ∈ l.bits) :
    l.fields.filter (·.2 == some f) = [(p, some f)] := by
  have hp : p ∈ List.range l.width.toNat := List.mem_range.mpr (lt_width_of_mem hlt h)
  have hsame : ∀ i ∈ List.range l.width.toNat,
      ((·.2 == some f) ∘ fun i ↦ (i, l.flagAt? i)) i = (i == p) := by
    intro i _
    rw [Bool.eq_iff_iff, Function.comp_apply, beq_iff_eq, beq_iff_eq,
      flagAt?_eq_some_iff hpositions]
    constructor
    · intro hi
      exact congrArg Prod.snd (List.inj_on_of_nodup_map hnames hi h rfl)
    · rintro rfl
      exact h
  rw [fields, List.filter_map, List.filter_congr hsame, List.filter_beq,
    List.count_eq_one_of_mem List.nodup_range hp, List.replicate_one, List.map_singleton,
    (flagAt?_eq_some_iff hpositions).mpr h]

end

end XrBindings.FlagLayout
