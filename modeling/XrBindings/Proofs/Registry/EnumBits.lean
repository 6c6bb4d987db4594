import Mathlib.Data.Int.Bitwise
import Mathlib.Tactic.Positivity
import XrBindings.Bindings.FlagType
import XrBindings.Proofs.Distinct
import XrBindings.Proofs.Registry.Accepted

/-!
# Bits of enum values

A value of an enum is one bit if its integer has this bit and no other, be it given as a bit
position or as an integer. What is checked when a registry is read are bit positions only: no two of
them in one enum are the same, and those of the bits of a set of flags are below its width. Of
integers nothing is known.
-/

namespace XrBindings

variable {d : Document} {v w : EnumValue} {n : Int} {p q : ℕ}

/-- The value is the integer whose only bit is `p`. -/
def EnumValue.IsBit (v : EnumValue) (p : ℕ) : Prop := v.integer? = .ok (some (2 ^ p))

/-- The bit of a value that is one. -/
def EnumValue.flagBit? (v : EnumValue) : Option ℕ :=
  match v.integer? with
  | .ok (some n) => FlagLayout.singleBit? n
  | _ => none

/-! ## Integers of one bit -/

theorem FlagLayout.singleBit?_eq_some_iff : singleBit? n = some p ↔ n = 2 ^ p := by
  rw [singleBit?, Nat.one_shiftLeft]
  constructor
  · intro h
    split at h
    · next hsingle =>
      obtain rfl := Option.some.inj h
      simp only [Bool.and_eq_true, decide_eq_true_eq, beq_iff_eq] at hsingle
      calc n = (n.toNat : ℕ) := by omega
        _ = (2 ^ n.toNat.log2 : ℕ) := congrArg Nat.cast hsingle.2
        _ = 2 ^ n.toNat.log2 := by norm_cast
    · exact absurd h (by simp)
  · rintro rfl
    have htoNat : ((2 : Int) ^ p).toNat = 2 ^ p := by norm_cast
    have hpos : (0 : Int) < 2 ^ p := by positivity
    rw [htoNat, Nat.log2_two_pow]
    simp [hpos]

namespace EnumValue

theorem IsBit.unique (hp : v.IsBit p) (hq : v.IsBit q) : p = q := by
  have h : (2 : Int) ^ p = 2 ^ q := Option.some.inj (Except.ok.inj (hp.symm.trans hq))
  exact Nat.pow_right_injective le_rfl (by exact_mod_cast h)

theorem flagBit?_eq_some_iff : v.flagBit? = some p ↔ v.IsBit p := by
  rw [flagBit?, IsBit]
  split
  · next n hn => rw [FlagLayout.singleBit?_eq_some_iff, hn, Except.ok.injEq, Option.some.injEq]
  · next hnone =>
    refine iff_of_false (by simp) fun h ↦ ?_
    exact hnone _ h

theorem isBit_iff_of_bit? (h : v.bit? = some n) : v.IsBit p ↔ n = p := by
  cases hmeaning : v.meaning with
  | bit position =>
    obtain rfl : position = n := by simpa [bit?, hmeaning] using h
    rw [IsBit, integer?, hmeaning]
    dsimp only
    split
    · next hneg => exact iff_of_false (by simp) (by omega)
    · next hnonneg =>
      obtain ⟨k, rfl⟩ : ∃ k : ℕ, position = k := ⟨position.toNat, by omega⟩
      rw [Except.ok.injEq, Option.some.injEq, Int.toNat_natCast, Nat.one_shiftLeft]
      norm_cast
      exact (Nat.pow_right_injective le_rfl).eq_iff
  | _ => simp [bit?, hmeaning] at h

theorem flagBit?_of_bit? {k : Int} (h : v.bit? = some n) (hinteger : v.integer? = .ok (some k)) :
    v.flagBit? = some n.toNat := by
  rw [flagBit?_eq_some_iff, isBit_iff_of_bit? h]
  -- A position below zero has no integer.
  cases hmeaning : v.meaning with
  | bit position =>
    obtain rfl : position = n := by simpa [bit?, hmeaning] using h
    rw [integer?, hmeaning] at hinteger
    dsimp only at hinteger
    split at hinteger
    · exact absurd hinteger (by simp)
    · omega
  | _ => simp [bit?, hmeaning] at h

end EnumValue

/-! ## Accepted documents -/

theorem keptBits : EnumDecl.Kept fun _ decl ↦ (decl.values.filterMap (·.bit?)).Nodup where
  start _ _ _ := List.nodup_nil
  add := by
    intro name decl value decl' hdecl h
    rcases EnumDecl.addValue_eq_ok_iff.mp h with ⟨-, -, -, rfl⟩ | ⟨-, hnew, rfl⟩
    · exact hdecl
    · rw [List.filterMap_append, List.nodup_append]
      cases hbit : value.bit? with
      | none => simpa [hbit] using hdecl
      | some position =>
        refine ⟨hdecl, by simp [hbit], ?_⟩
        intro a ha b hb hab
        obtain rfl : b = position := by simpa [hbit] using hb
        exact hnew _ hbit (hab ▸ ha)

/-- Two values of an enum that are given by bit positions are different bits. -/
theorem Document.Accepted.eq_of_isBit (hd : d.Accepted) {name : String} {decl : EnumDecl}
    (hdecl : d.enums.get? name = some decl) (hv : v ∈ decl.values) (hw : w ∈ decl.values)
    (hvbit : v.bit? ≠ none) (hwbit : w.bit? ≠ none) (hvp : v.IsBit p) (hwp : w.IsBit p) :
    v = w := by
  obtain ⟨m, hm⟩ := Option.ne_none_iff_exists'.mp hvbit
  obtain ⟨n, hn⟩ := Option.ne_none_iff_exists'.mp hwbit
  obtain rfl := (EnumValue.isBit_iff_of_bit? hm).mp hvp
  obtain rfl := (EnumValue.isBit_iff_of_bit? hn).mp hwp
  have hvalues := (hd.consistent.enums_named name decl hdecl).2.of_map
  have hbits := (nodup_filterMap_iff hvalues).mp (hd.forall_enums keptBits name decl hdecl)
  by_contra hne
  exact hbits v hv w hw hne _ hm hn

/-- A bit position is below the width of the set of flags whose bits it belongs to. -/
theorem Document.Accepted.lt_width_of_isBit (hd : d.Accepted) {name bits : String} {width : ℕ}
    {decl : EnumDecl} (hty : .bitmask name width (some bits) ∈ d.types.values)
    (hdecl : d.enums.get? bits = some decl) (hv : v ∈ decl.values) (hbit : v.bit? ≠ none)
    (hp : v.IsBit p) : p < width := by
  obtain ⟨n, hn⟩ := Option.ne_none_iff_exists'.mp hbit
  obtain rfl := (EnumValue.isBit_iff_of_bit? hn).mp hp
  obtain ⟨root, tables, commandTables, enums, hread⟩ := hd.readFrom
  have hvalues := Result.forM_eq_ok_iff.mp hread.bitWidths_checked _ hty
  dsimp only at hvalues
  rw [hdecl] at hvalues
  have hcheck := Result.forM_eq_ok_iff.mp hvalues v hv
  rw [Declarations.checkBit, hn] at hcheck
  dsimp only at hcheck
  split at hcheck
  · exact absurd hcheck Number.rejectShowing_ne_ok
  · omega

end XrBindings
