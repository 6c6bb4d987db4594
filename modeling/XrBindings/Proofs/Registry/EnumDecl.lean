import Mathlib.Data.List.Nodup
import XrBindings.Proofs.Number.IntegerText
import XrBindings.Registry.EnumDecl

/-!
# Adding values to an enum

A mention of a value is either new to the enum or has to agree with the mention that is known. What
a step can do is stated once, by `addValue_eq_ok_iff`; everything that is kept while an enum is
filled follows from it.
-/

namespace XrBindings

namespace EnumValue

variable {u v w : EnumValue}

/-- A value can be asked for its integer unless it is given by a negative bit position. -/
theorem exists_integer?_eq_ok_iff :
    (∃ k, v.integer? = .ok k) ↔ ∀ bit, v.bit? = some bit → 0 ≤ bit := by
  rw [integer?, bit?]
  cases v.meaning with
  | number value => simp
  | aliasOf target => simp
  | bit position =>
    simp only [Option.some.injEq, forall_eq']
    split
    · next hneg => exact iff_of_false (by simp) (Int.not_le.mpr hneg)
    · next hnonneg => exact iff_of_true ⟨_, rfl⟩ (Int.not_lt.mp hnonneg)

/-- Two mentions agree: they have the same integer, or none, and follow the same name, or none. -/
def Agrees (v w : EnumValue) : Prop :=
  (∃ k, v.integer? = .ok k ∧ w.integer? = .ok k) ∧ v.aliasTarget? = w.aliasTarget?

theorem Agrees.integer?_eq (h : v.Agrees w) : v.integer? = w.integer? := by
  obtain ⟨⟨k, hv, hw⟩, -⟩ := h
  rw [hv, hw]

theorem Agrees.symm (h : v.Agrees w) : w.Agrees v := by
  obtain ⟨⟨k, hv, hw⟩, htarget⟩ := h
  exact ⟨⟨k, hw, hv⟩, htarget.symm⟩

theorem Agrees.trans (h : u.Agrees v) (h' : v.Agrees w) : u.Agrees w := by
  obtain ⟨⟨k, hu, hv⟩, htarget⟩ := h
  exact ⟨⟨k, hu, by rw [← h'.integer?_eq, hv]⟩, htarget.trans h'.2⟩

end EnumValue

namespace EnumDecl

variable {d d' : EnumDecl} {known v : EnumValue}

theorem agree_eq_ok_true_iff : agree known v = .ok true ↔ known.Agrees v := by
  rw [agree, EnumValue.Agrees]
  simp only [Result.bind_eq_ok_iff, Result.pure_eq_ok_iff, Bool.and_eq_true, beq_iff_eq]
  constructor
  · rintro ⟨j, hj, k, hk, rfl, htarget⟩
    exact ⟨⟨j, hj, hk⟩, htarget⟩
  · rintro ⟨⟨k, hj, hk⟩, htarget⟩
    exact ⟨k, hj, k, hk, rfl, htarget⟩

theorem find?_name_eq_none_iff {name : Option String} :
    d.values.find? (·.name == name) = none ↔ name ∉ d.values.map (·.name) := by
  simp [List.find?_eq_none]

theorem find?_name_of_mem (hd : (d.values.map (·.name)).Nodup) (hv : v ∈ d.values) :
    d.values.find? (·.name == v.name) = some v := by
  cases hfind : d.values.find? (·.name == v.name) with
  | none => exact absurd (List.mem_map_of_mem hv) (find?_name_eq_none_iff.mp hfind)
  | some w =>
    have hname : w.name = v.name := by simpa using List.find?_some hfind
    rw [List.inj_on_of_nodup_map hd (List.mem_of_find?_eq_some hfind) hv hname]

theorem find?_bit?_eq_none_iff {position : Int} :
    d.values.find? (·.bit? == some position) = none ↔
      position ∉ d.values.filterMap (·.bit?) := by
  simp [List.find?_eq_none]

/-- **Adding a mention.** It agrees with the value that is known under its name, or its name and its
bit position are new and it is appended. -/
theorem addValue_eq_ok_iff :
    d.addValue v = .ok d' ↔
      (∃ known, d.values.find? (·.name == v.name) = some known ∧ known.Agrees v ∧ d' = d) ∨
      v.name ∉ d.values.map (·.name) ∧
        (∀ position, v.bit? = some position → position ∉ d.values.filterMap (·.bit?)) ∧
        d' = { d with values := d.values ++ [v] } := by
  rw [addValue]
  constructor
  · intro h
    split at h
    · next known hknown =>
      obtain ⟨same, hsame, h⟩ := Result.bind_eq_ok_iff.mp h
      cases same with
      | true => exact Or.inl ⟨known, hknown, agree_eq_ok_true_iff.mp hsame, (Except.ok.inj h).symm⟩
      | false => exact absurd h Result.reject_ne_ok
    · next hnone =>
      refine Or.inr ⟨find?_name_eq_none_iff.mp hnone, ?_⟩
      split at h
      · next hbit => exact ⟨by simp [hbit], (Except.ok.inj h).symm⟩
      · next position hbit =>
        split at h
        · exact absurd h Number.rejectShowing_ne_ok
        · next hfree =>
          refine ⟨?_, (Except.ok.inj h).symm⟩
          intro position' hposition
          obtain rfl : position = position' := Option.some.inj (hbit.symm.trans hposition)
          exact find?_bit?_eq_none_iff.mp hfree
  · rintro (⟨known, hknown, hagrees, rfl⟩ | ⟨hnew, hfree, rfl⟩)
    · rw [hknown]
      exact Result.bind_eq_ok_iff.mpr ⟨true, agree_eq_ok_true_iff.mpr hagrees, rfl⟩
    · rw [find?_name_eq_none_iff.mpr hnew]
      dsimp only
      split
      · rfl
      · next position hbit => rw [find?_bit?_eq_none_iff.mpr (hfree position hbit)]

end EnumDecl

end XrBindings
