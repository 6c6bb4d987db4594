import XrBindings.Proofs.Flags.Algebra

/-!
# Flags and integers

Values of a set of flags are passed on as integers. From an integer to its value and back nothing is
lost but what does not fit into the storage: named bits become flags and all others undefined bits,
so that every bit of the storage is kept on one side. For this flags may even share bits, or have
bits outside the storage, which no number has.

In the other direction a value may hold what its number cannot tell: undefined bits that have a name
come back as flags, and those outside the storage are cut off. A value comes back as it was exactly
if it has no such bits.
-/

namespace XrBindings.FlagLayout

variable {l : FlagLayout} {v : FlagValue} {m : ℕ} {z : Int}

/-- **From an integer and back.** The number of the value of an integer has the bits of the integer,
at the named bits because the flags are set and at the others because they are undefined bits. -/
theorem Named.exists_toInt_fromInt (hl : l.Named) (z : Int) :
    ∃ v, l.fromInt z = .ok v ∧ l.toInt v = .ok (l.truncate z) := by
  obtain ⟨v, hv, hset, hundefined⟩ := fromInt_eq_ok hl z
  have hknown : l.Knows v := by
    intro f hf
    obtain ⟨p, hp, -⟩ := (hset f).mp hf
    exact mem_names.mpr ⟨p, hp⟩
  have hrest : l.truncate v.undefinedBits = (l.truncate z).ldiff l.definedMask := by
    have hlt := ldiff_lt_two_pow (l.truncate_lt z) l.definedMask
    rw [hundefined, truncate_of_lt (by omega) (by exact_mod_cast hlt), Int.toNat_natCast]
  obtain ⟨m, hm, -, hbits⟩ := hl.toInt_eq_ok hknown
  suffices hsame : m = l.truncate z from ⟨v, hv, hsame ▸ hm⟩
  refine Nat.eq_of_testBit_eq fun i ↦ Bool.eq_iff_iff.mpr ?_
  rw [hbits, hrest, Nat.testBit_ldiff, Bool.and_eq_true, Bool.not_eq_true']
  constructor
  · rintro (⟨hi, -⟩ | ⟨-, f, hf, hi⟩)
    · exact hi
    · obtain ⟨p, hp, hbit⟩ := (hset f).mp hf
      exact hl.eq_of_name hp hi ▸ hbit
  · intro hi
    cases hnamed : l.definedMask.testBit i with
    | false => exact Or.inl ⟨hi, rfl⟩
    | true =>
      have hlt : i < l.width.toNat := by
        by_contra hge
        have hpow := Nat.pow_le_pow_right Nat.two_pos (not_lt.mp hge)
        rw [Nat.testBit_lt_two_pow ((l.truncate_lt z).trans_le hpow)] at hi
        exact Bool.false_ne_true hi
      obtain ⟨f, hf⟩ := testBit_definedMask.mp hnamed
      exact Or.inr ⟨hlt, f, (hset f).mpr ⟨i, hf, hi⟩, hf⟩

/-- **From a value and back.** A value with known flags comes back exactly if it is normal, because
everything that comes back is, and a normal value is determined by its number. -/
theorem exists_fromInt_toInt (hl : l.WellFormed) (hv : l.Knows v) :
    ∃ m r, l.toInt v = .ok m ∧ l.fromInt m = .ok r ∧
      (r.Is v.set v.undefinedBits ↔ l.Normal v) := by
  obtain ⟨m, hm, hlt, -⟩ := toInt_eq_ok hl hv
  obtain ⟨r, hr, hnormal, hnumbers⟩ := exists_fromInt_numbers hl hlt
  refine ⟨m, r, hm, hr, ?_, ?_⟩
  · rintro ⟨-, hundefined⟩
    exact ⟨hv, hundefined ▸ hnormal.nonneg, hundefined ▸ hnormal.lt, hundefined ▸ hnormal.disjoint⟩
  · intro hnormal'
    obtain ⟨m', hnumbers'⟩ := hnormal'.exists_numbers hl
    obtain rfl : m = m' := Except.ok.inj (hm.symm.trans hnumbers'.toInt_eq)
    exact ⟨hnumbers.set_eq hv hnumbers'.named, hnumbers.unnamed.trans hnumbers'.unnamed.symm⟩

theorem conversions_eq_error (hwidth : l.width < 0) (hnames : (l.bits.map (·.1)).Nodup) :
    (∀ z, l.fromInt z = .error .negativeBit) ∧
      ∀ v, l.Knows v → l.toInt v = .error .negativeBit := by
  have hcheck : l.checkWidth = .error .negativeBit := if_pos hwidth
  refine ⟨fun z ↦ ?_, fun v hv ↦ ?_⟩
  · rw [fromInt, hcheck]
    rfl
  · obtain ⟨positions, -, htoInt⟩ := exists_toInt_eq hnames hv
    rw [htoInt, hcheck]
    rfl

/-- **Conversions lose nothing.** In a layout with storage whose flags have different names, the
number of the value of any integer is the integer, cut to the storage. If the flags have bits of
their own within the storage as well, the value of the number of a value with known flags is this
value exactly if its undefined bits lie within the storage and none of them has a name. Where the
width is negative there are no numbers, and both conversions fail. -/
theorem conversions_lossless (hnames : (l.bits.map (·.1)).Nodup) :
    (0 ≤ l.width →
      (∀ z : Int, ∃ v m, l.fromInt z = .ok v ∧ l.toInt v = .ok m ∧
        (m : Int) = z % 2 ^ l.width.toNat) ∧
      ((l.bits.map (·.2)).Nodup → (∀ b ∈ l.bits, (b.2 : Int) < l.width) → ∀ v, l.Knows v →
        ∃ m r, l.toInt v = .ok m ∧ l.fromInt m = .ok r ∧
          (r.Is v.set v.undefinedBits ↔
            0 ≤ v.undefinedBits ∧ v.undefinedBits < 2 ^ l.width.toNat ∧
              Int.land v.undefinedBits l.definedMask = 0))) ∧
    (l.width < 0 → (∀ z, l.fromInt z = .error .negativeBit) ∧
      ∀ v, l.Knows v → l.toInt v = .error .negativeBit) := by
  refine ⟨fun hwidth ↦ ⟨fun z ↦ ?_, fun hpositions hlt v hv ↦ ?_⟩,
    fun hwidth ↦ conversions_eq_error hwidth hnames⟩
  · obtain ⟨v, hv, hm⟩ := Named.exists_toInt_fromInt ⟨hwidth, hnames⟩ z
    exact ⟨v, _, hv, hm, l.natCast_truncate z⟩
  · obtain ⟨m, r, hm, hr, hiff⟩ :=
      exists_fromInt_toInt ⟨hwidth, hnames, hpositions, hlt⟩ hv
    refine ⟨m, r, hm, hr, hiff.trans ⟨?_, ?_⟩⟩
    · intro h
      exact ⟨h.nonneg, h.lt, h.disjoint⟩
    · rintro ⟨hnonneg, hlt, hdisjoint⟩
      exact ⟨hv, hnonneg, hlt, hdisjoint⟩

/-- A negative integer, and a value with an undefined bit, in a byte with three flags. -/
theorem conversions_lossless_gapped :
    (gappedLayout.bits.map (·.1)).Nodup ∧
      (∃ v m, gappedLayout.fromInt (-3) = .ok v ∧ gappedLayout.toInt v = .ok m ∧ (m : Int) = 253) ∧
      ∃ m r, gappedLayout.toInt { flags := ["share"], undefinedBits := 0x90 } = .ok m ∧
        gappedLayout.fromInt m = .ok r ∧ r.Is {"share"} 0x90 := by
  have hnames : (gappedLayout.bits.map (·.1)).Nodup := by decide
  obtain ⟨hstored, -⟩ := conversions_lossless hnames
  obtain ⟨hintegers, hvalues⟩ := hstored (by decide)
  obtain ⟨v, m, hv, hm, hmod⟩ := hintegers (-3)
  obtain ⟨m', r, hm', hr, hiff⟩ := hvalues (by decide) (by decide)
    { flags := ["share"], undefinedBits := 0x90 } (by decide)
  exact ⟨hnames, ⟨v, m, hv, hm, hmod.trans (by decide)⟩, m', r, hm', hr, hiff.mpr (by decide)⟩

end XrBindings.FlagLayout
