import XrBindings.Naming.Words

/-!
# The case of ASCII letters

Rendering a name changes the case of its letters and nothing else about its characters. A character
whose case is changed either stays or becomes a letter of the other case, so that no underscore
comes or goes. All of this is arithmetic on code points, where a letter moves by 32.
-/

namespace XrBindings.Naming

variable {c : Char}

theorem isCapital_iff : isCapital c = true ↔ 65 ≤ c.toNat ∧ c.toNat ≤ 90 := by
  rw [isCapital, Bool.and_eq_true, decide_eq_true_iff, decide_eq_true_iff]
  exact Iff.rfl

theorem isSmall_iff : isSmall c = true ↔ 97 ≤ c.toNat ∧ c.toNat ≤ 122 := by
  rw [isSmall, Bool.and_eq_true, decide_eq_true_iff, decide_eq_true_iff]
  exact Iff.rfl

theorem isCapital_eq_false_of_isSmall (h : isSmall c = true) : isCapital c = false := by
  rw [isSmall_iff] at h
  rw [Bool.eq_false_iff, ne_eq, isCapital_iff]
  omega

theorem isSmall_eq_false_of_isCapital (h : isCapital c = true) : isSmall c = false := by
  rw [isCapital_iff] at h
  rw [Bool.eq_false_iff, ne_eq, isSmall_iff]
  omega

theorem isAlpha_iff : c.isAlpha = true ↔ isCapital c = true ∨ isSmall c = true := by
  have hcapital : c.isUpper = isCapital c := Bool.decide_and ..
  rw [← hcapital]
  exact Bool.or_eq_true_iff

theorem toNat_toLower (c : Char) :
    c.toLower.toNat = if isCapital c = true then c.toNat + 32 else c.toNat := by
  by_cases hcapital : isCapital c = true
  · have hrange := isCapital_iff.mp hcapital
    have hshift : (c.val + ('a'.val - 'A'.val)).toNat = (c.toNat + 32) % 2 ^ 32 :=
      UInt32.toNat_add ..
    rw [if_pos hcapital]
    exact (congrArg Char.toNat (dif_pos hrange)).trans
      (hshift.trans (Nat.mod_eq_of_lt (by omega)))
  · rw [if_neg hcapital]
    exact congrArg Char.toNat (dif_neg (mt isCapital_iff.mpr hcapital))

theorem toNat_toUpper (c : Char) :
    c.toUpper.toNat = if isSmall c = true then c.toNat - 32 else c.toNat := by
  by_cases hsmall : isSmall c = true
  · have hrange := isSmall_iff.mp hsmall
    -- The difference of the letters is negative, so the shift goes round.
    have hshift : (c.val + ('A'.val - 'a'.val)).toNat = (c.toNat + (2 ^ 32 - 32)) % 2 ^ 32 :=
      UInt32.toNat_add ..
    rw [if_pos hsmall]
    exact (congrArg Char.toNat (dif_pos hrange)).trans (hshift.trans (by omega))
  · rw [if_neg hsmall]
    exact congrArg Char.toNat (dif_neg (mt isSmall_iff.mpr hsmall))

/-- Capitals become small letters, and all other characters stay. -/
theorem toLower_eq_or_isSmall (c : Char) : c.toLower = c ∨ isSmall c.toLower = true := by
  by_cases hcapital : isCapital c = true
  · rw [isSmall_iff, toNat_toLower, if_pos hcapital]
    rw [isCapital_iff] at hcapital
    exact Or.inr (by omega)
  · exact Or.inl (Char.toNat_inj.mp (by rw [toNat_toLower, if_neg hcapital]))

/-- Small letters become capitals, and all other characters stay. -/
theorem toUpper_eq_or_isCapital (c : Char) : c.toUpper = c ∨ isCapital c.toUpper = true := by
  by_cases hsmall : isSmall c = true
  · rw [isCapital_iff, toNat_toUpper, if_pos hsmall]
    rw [isSmall_iff] at hsmall
    exact Or.inr (by omega)
  · exact Or.inl (Char.toNat_inj.mp (by rw [toNat_toUpper, if_neg hsmall]))

@[simp] theorem isCapital_toLower (c : Char) : isCapital c.toLower = false := by
  rw [Bool.eq_false_iff, ne_eq, isCapital_iff, toNat_toLower]
  split
  · next hcapital =>
    rw [isCapital_iff] at hcapital
    omega
  · next hcapital => rwa [isCapital_iff] at hcapital

@[simp] theorem isSmall_toUpper (c : Char) : isSmall c.toUpper = false := by
  rw [Bool.eq_false_iff, ne_eq, isSmall_iff, toNat_toUpper]
  split
  · next hsmall =>
    rw [isSmall_iff] at hsmall
    omega
  · next hsmall => rwa [isSmall_iff] at hsmall

@[simp] theorem isSmall_toLower (c : Char) : isSmall c.toLower = c.isAlpha := by
  rw [Bool.eq_iff_iff, isAlpha_iff, isSmall_iff, toNat_toLower]
  split
  · next hcapital =>
    have hrange := isCapital_iff.mp hcapital
    exact iff_of_true (by omega) (Or.inl hcapital)
  · next hcapital => rw [isSmall_iff, or_iff_right hcapital]

@[simp] theorem isCapital_toUpper (c : Char) : isCapital c.toUpper = c.isAlpha := by
  rw [Bool.eq_iff_iff, isAlpha_iff, isCapital_iff, toNat_toUpper]
  split
  · next hsmall =>
    have hrange := isSmall_iff.mp hsmall
    exact iff_of_true (by omega) (Or.inr hsmall)
  · next hsmall => rw [isCapital_iff, or_iff_left hsmall]

@[simp] theorem isAlpha_toLower (c : Char) : c.toLower.isAlpha = c.isAlpha := by
  rw [Bool.eq_iff_iff, isAlpha_iff, isCapital_toLower, isSmall_toLower]
  simp

@[simp] theorem isAlpha_toUpper (c : Char) : c.toUpper.isAlpha = c.isAlpha := by
  rw [Bool.eq_iff_iff, isAlpha_iff, isCapital_toUpper, isSmall_toUpper]
  simp

@[simp] theorem toLower_toLower (c : Char) : c.toLower.toLower = c.toLower :=
  Char.toNat_inj.mp (by rw [toNat_toLower, isCapital_toLower]; rfl)

@[simp] theorem toUpper_toUpper (c : Char) : c.toUpper.toUpper = c.toUpper :=
  Char.toNat_inj.mp (by rw [toNat_toUpper, isSmall_toUpper]; rfl)

@[simp] theorem toLower_toUpper (c : Char) : c.toUpper.toLower = c.toLower := by
  refine Char.toNat_inj.mp ?_
  rw [toNat_toLower, toNat_toLower, toNat_toUpper]
  simp only [isCapital_toUpper, isAlpha_iff]
  by_cases hsmall : isSmall c = true
  · have hcapital := isCapital_eq_false_of_isSmall hsmall
    rw [isSmall_iff] at hsmall
    simp only [isSmall_iff, hsmall, hcapital]
    simp
    omega
  · simp [hsmall]

@[simp] theorem toUpper_toLower (c : Char) : c.toLower.toUpper = c.toUpper := by
  refine Char.toNat_inj.mp ?_
  rw [toNat_toUpper, toNat_toUpper, toNat_toLower]
  simp only [isSmall_toLower, isAlpha_iff]
  by_cases hcapital : isCapital c = true
  · have hsmall := isSmall_eq_false_of_isCapital hcapital
    simp [hcapital, hsmall]
  · simp [hcapital]

theorem toUpper_of_isCapital (h : isCapital c = true) : c.toUpper = c :=
  Char.toNat_inj.mp (by rw [toNat_toUpper, isSmall_eq_false_of_isCapital h]; rfl)

@[simp] theorem toLower_eq_underscore : c.toLower = '_' ↔ c = '_' := by
  constructor
  · intro h
    rcases toLower_eq_or_isSmall c with hsame | hsmall
    · exact hsame.symm.trans h
    · rw [h] at hsmall
      exact absurd hsmall (by decide)
  · rintro rfl
    rfl

@[simp] theorem toUpper_eq_underscore : c.toUpper = '_' ↔ c = '_' := by
  constructor
  · intro h
    rcases toUpper_eq_or_isCapital c with hsame | hcapital
    · exact hsame.symm.trans h
    · rw [h] at hcapital
      exact absurd hcapital (by decide)
  · rintro rfl
    rfl

end XrBindings.Naming
