import Mathlib.Data.Finset.Dedup
import Mathlib.Data.Finset.Lattice.Basic
import Mathlib.Data.Int.Bitwise
import Mathlib.Tactic.Positivity
import XrBindings.Flags.Layout
import XrBindings.Proofs.Result
import XrBindings.Table

/-!
# The algebra of flags is that of sets

A value of a set of flags is a set of names beside the bits without a name, and the operations are
computed on numbers. They agree with union, intersection and difference of the sets, and with the
operations on bits for what has no name. What carries this is that a number and a value determine
each other bit by bit: at a named bit the number says whether the flag is set, and everywhere else
it has the bits of the value. So an operation is compared at one bit at a time.

A value may also be given with undefined bits that have names after all, that do not fit into the
storage, or that are negative. Such a value has a number, and the value of this number stands for
it in every operation.
-/

namespace XrBindings

/-- The flags that are set. -/
def FlagValue.set (v : FlagValue) : Finset String := v.flags.toFinset

/-- The value has these flags and these bits without a name. -/
def FlagValue.Is (v : FlagValue) (flags : Finset String) (undefinedBits : Int) : Prop :=
  v.set = flags ∧ v.undefinedBits = undefinedBits

namespace FlagLayout

variable {l : FlagLayout} {a b r v : FlagValue} {f : String} {i k m n p : ℕ}

def names (l : FlagLayout) : Finset String := (l.bits.map (·.1)).toFinset

/-- Every flag has a name and a bit of its own, and the bits fit into the storage. -/
structure WellFormed (l : FlagLayout) : Prop where
  width_nonneg : 0 ≤ l.width
  nodup_names : (l.bits.map (·.1)).Nodup
  nodup_positions : (l.bits.map (·.2)).Nodup
  position_lt : ∀ b ∈ l.bits, (b.2 : Int) < l.width

/-- There is storage, and every flag has a name of its own. Flags may share bits, and bits need not
fit into the storage. -/
structure Named (l : FlagLayout) : Prop where
  width_nonneg : 0 ≤ l.width
  nodup_names : (l.bits.map (·.1)).Nodup

theorem WellFormed.named (hl : l.WellFormed) : l.Named := ⟨hl.width_nonneg, hl.nodup_names⟩

/-- The layout has the flags of the value. -/
def Knows (l : FlagLayout) (v : FlagValue) : Prop := v.set ⊆ l.names

instance (l : FlagLayout) (v : FlagValue) : Decidable (l.Knows v) :=
  inferInstanceAs (Decidable (v.set ⊆ l.names))

/-- The flags are known, and the undefined bits are bits of the storage that have no name. -/
structure Normal (l : FlagLayout) (v : FlagValue) : Prop where
  known : l.Knows v
  nonneg : 0 ≤ v.undefinedBits
  lt : v.undefinedBits < 2 ^ l.width.toNat
  disjoint : Int.land v.undefinedBits l.definedMask = 0

/-! ## Bits -/

theorem without_eq (m n : ℕ) : without m n = Nat.ldiff m n := by
  refine Nat.eq_of_testBit_eq fun i ↦ ?_
  rw [without, Nat.testBit_xor, Nat.testBit_and, Nat.testBit_ldiff]
  cases m.testBit i <;> cases n.testBit i <;> rfl

theorem and_eq_left_iff {m n : ℕ} :
    m &&& n = m ↔ ∀ i, m.testBit i = true → n.testBit i = true := by
  constructor
  · intro h i hi
    have hbit := congrArg (Nat.testBit · i) h
    simpa [hi] using hbit
  · intro h
    refine Nat.eq_of_testBit_eq fun i ↦ ?_
    rw [Nat.testBit_and, Bool.and_eq_left_iff_imp]
    exact h i

theorem or_eq_left_iff {m n : ℕ} :
    m ||| n = m ↔ ∀ i, n.testBit i = true → m.testBit i = true := by
  constructor
  · intro h i hi
    have hbit := congrArg (Nat.testBit · i) h
    simpa [hi] using hbit.symm
  · intro h
    refine Nat.eq_of_testBit_eq fun i ↦ ?_
    rw [Nat.testBit_or, Bool.or_eq_left_iff_imp]
    exact h i

theorem ldiff_lt_two_pow {width : ℕ} (h : m < 2 ^ width) (n : ℕ) : m.ldiff n < 2 ^ width := by
  refine Nat.lt_pow_two_of_testBit _ fun i hi ↦ ?_
  have hbit : m.testBit i = false :=
    Nat.testBit_lt_two_pow (h.trans_le (Nat.pow_le_pow_right Nat.two_pos hi))
  rw [Nat.testBit_ldiff, hbit, Bool.false_and]

theorem testBit_foldl_or (positions : List ℕ) (n i : ℕ) :
    (positions.foldl (fun n p ↦ n ||| 1 <<< p) n).testBit i = true
      ↔ n.testBit i = true ∨ i ∈ positions := by
  induction positions generalizing n with
  | nil => simp
  | cons p positions ih =>
    rw [List.foldl_cons, ih, Nat.testBit_or, Nat.one_shiftLeft, Nat.testBit_two_pow,
      Bool.or_eq_true, decide_eq_true_eq, List.mem_cons, or_assoc, @eq_comm _ p]

theorem testBit_definedMask : l.definedMask.testBit i = true ↔ ∃ f, (f, i) ∈ l.bits := by
  have hfold : l.definedMask = (l.bits.map (·.2)).foldl (fun n p ↦ n ||| 1 <<< p) 0 := by
    rw [definedMask, List.foldl_map]
  rw [hfold, testBit_foldl_or]
  simp

theorem mem_names : f ∈ l.names ↔ ∃ p, (f, p) ∈ l.bits := by
  simp [names]

theorem capacity_eq (l : FlagLayout) : l.capacity = 2 ^ l.width.toNat := Nat.one_shiftLeft _

theorem natCast_truncate (l : FlagLayout) (z : Int) :
    (l.truncate z : Int) = z % 2 ^ l.width.toNat := by
  have hpos : (0 : Int) < 2 ^ l.width.toNat := by positivity
  have hnonneg := Int.emod_nonneg z hpos.ne'
  rw [truncate, capacity_eq, Nat.cast_pow, Nat.cast_ofNat]
  omega

theorem truncate_lt (l : FlagLayout) (z : Int) : l.truncate z < 2 ^ l.width.toNat := by
  have hpos : (0 : Int) < (2 ^ l.width.toNat : ℕ) := by positivity
  have hlt := Int.emod_lt_of_pos z hpos
  rw [truncate, capacity_eq]
  omega

theorem truncate_of_lt {z : Int} (hz : 0 ≤ z) (h : z < 2 ^ l.width.toNat) :
    l.truncate z = z.toNat := by
  rw [truncate, capacity_eq, Int.emod_eq_of_lt hz (by exact_mod_cast h)]

theorem position?_eq_some_iff (hnames : (l.bits.map (·.1)).Nodup) :
    l.position? f = some p ↔ (f, p) ∈ l.bits := by
  have hnodup : (l.bits.reverse.map Prod.fst).Nodup := by
    rw [List.map_reverse, List.nodup_reverse]
    exact hnames
  rw [position?, Table.lookup_eq_some_iff_mem hnodup, List.mem_reverse]

namespace Named

variable (hl : l.Named)

include hl

theorem checkWidth_eq_ok : l.checkWidth = .ok () := if_neg (not_lt.mpr hl.width_nonneg)

theorem eq_of_name {q : ℕ} (h : (f, p) ∈ l.bits) (h' : (f, q) ∈ l.bits) : p = q :=
  congrArg Prod.snd (List.inj_on_of_nodup_map hl.nodup_names h h' rfl)

end Named

namespace WellFormed

variable (hl : l.WellFormed)

include hl

theorem lt_width (h : (f, p) ∈ l.bits) : p < l.width.toNat := by
  have hlt := hl.position_lt (f, p) h
  omega

theorem eq_of_position {f' : String} (h : (f, p) ∈ l.bits) (h' : (f', p) ∈ l.bits) : f = f' :=
  congrArg Prod.fst (List.inj_on_of_nodup_map hl.nodup_positions h h' rfl)

end WellFormed

/-! ## Numbers of values -/

/-- The bits of known flags are found, so that only the storage can be missing. -/
theorem exists_toInt_eq (hnames : (l.bits.map (·.1)).Nodup) (hv : l.Knows v) :
    ∃ positions : List ℕ, (∀ i, i ∈ positions ↔ ∃ f ∈ v.set, (f, i) ∈ l.bits) ∧
      l.toInt v = l.checkWidth.map fun _ ↦
        l.truncate v.undefinedBits |||
          positions.foldl (fun n p ↦ n ||| 1 <<< p) 0 % l.capacity := by
  rw [toInt]
  generalize hresult : (v.flags.mapM _ : Result (List ℕ)) = result
  cases result with
  | error e =>
    -- Only a flag that is not known has no bit.
    obtain ⟨before, f, after, -, hflags, -, hfails⟩ := Result.mapM_eq_error_iff.mp hresult
    have hf : f ∈ v.set := List.mem_toFinset.mpr (by simp [hflags])
    obtain ⟨p, hp⟩ := mem_names.mp (hv hf)
    rw [(position?_eq_some_iff hnames).mpr hp] at hfails
    exact absurd hfails (by simp)
  | ok positions =>
    refine ⟨positions, fun i ↦ ?_, ?_⟩
    · rw [Result.mem_of_mapM hresult]
      simp only [FlagValue.set, List.mem_toFinset, ← position?_eq_some_iff hnames]
      refine exists_congr fun f ↦ and_congr_right fun _ ↦ ?_
      cases l.position? f <;> simp
    · rw [Result.ok_bind]
      cases l.checkWidth <;> rfl

/-- The number of a value with known flags: it has the bits of the flags and those of the undefined
bits, as far as they fit into the storage. -/
theorem Named.toInt_eq_ok (hl : l.Named) (hv : l.Knows v) :
    ∃ n, l.toInt v = .ok n ∧ n < 2 ^ l.width.toNat ∧ ∀ i, n.testBit i = true ↔
      (l.truncate v.undefinedBits).testBit i = true ∨
        i < l.width.toNat ∧ ∃ f ∈ v.set, (f, i) ∈ l.bits := by
  obtain ⟨positions, hmem, htoInt⟩ := exists_toInt_eq hl.nodup_names hv
  rw [hl.checkWidth_eq_ok] at htoInt
  refine ⟨_, htoInt, ?_, fun i ↦ ?_⟩
  · refine Nat.or_lt_two_pow (l.truncate_lt _) ?_
    rw [capacity_eq]
    exact Nat.mod_lt _ (by positivity)
  · rw [Nat.testBit_or, Bool.or_eq_true, capacity_eq, Nat.testBit_mod_two_pow, Bool.and_eq_true,
      decide_eq_true_eq, testBit_foldl_or, ← hmem]
    simp only [Nat.zero_testBit, Bool.false_eq_true, false_or]

theorem toInt_eq_ok (hl : l.WellFormed) (hv : l.Knows v) :
    ∃ n, l.toInt v = .ok n ∧ n < 2 ^ l.width.toNat ∧ ∀ i, n.testBit i = true ↔
      (l.truncate v.undefinedBits).testBit i = true ∨ ∃ f ∈ v.set, (f, i) ∈ l.bits := by
  obtain ⟨n, hn, hlt, hbits⟩ := hl.named.toInt_eq_ok hv
  refine ⟨n, hn, hlt, fun i ↦ (hbits i).trans (or_congr_right ⟨fun h ↦ h.2, fun h ↦ ⟨?_, h⟩⟩)⟩
  obtain ⟨f, -, hf⟩ := h
  exact hl.lt_width hf

/-- A number and a value belong together: the number says of every flag whether it is set, and its
bits without a name are the undefined bits. -/
structure Numbers (l : FlagLayout) (v : FlagValue) (n : ℕ) : Prop where
  known : l.Knows v
  toInt_eq : l.toInt v = .ok n
  lt : n < 2 ^ l.width.toNat
  named : ∀ f p, (f, p) ∈ l.bits → (n.testBit p = true ↔ f ∈ v.set)
  unnamed : v.undefinedBits = (n.ldiff l.definedMask : ℕ)

/-- Where no undefined bit has a name, the number of a value belongs to it. -/
theorem Normal.exists_numbers (hl : l.WellFormed) (hv : l.Normal v) : ∃ n, l.Numbers v n := by
  obtain ⟨n, hn, hlt, hbits⟩ := toInt_eq_ok hl hv.known
  obtain ⟨u, hu⟩ := Int.eq_ofNat_of_zero_le hv.nonneg
  have htruncate : l.truncate v.undefinedBits = u := by
    rw [truncate_of_lt hv.nonneg hv.lt, hu, Int.toNat_natCast]
  have hdisjoint : u &&& l.definedMask = 0 := by
    have h := hv.disjoint
    rw [hu] at h
    exact Int.ofNat.inj h
  have hunnamed : ∀ i, u.testBit i = true → l.definedMask.testBit i = false := by
    intro i hi
    have h := congrArg (Nat.testBit · i) hdisjoint
    simpa [hi] using h
  rw [htruncate] at hbits
  refine ⟨n, hv.known, hn, hlt, fun f p hf ↦ ?_, ?_⟩
  · rw [hbits]
    have hnamed : l.definedMask.testBit p = true := testBit_definedMask.mpr ⟨f, hf⟩
    constructor
    · rintro (hi | ⟨f', hf', hp⟩)
      · exact absurd (hunnamed p hi) (by simp [hnamed])
      · exact hl.eq_of_position hf hp ▸ hf'
    · exact fun h ↦ Or.inr ⟨f, h, hf⟩
  · rw [hu]
    refine congrArg Int.ofNat (Nat.eq_of_testBit_eq fun i ↦ Bool.eq_iff_iff.mpr ?_)
    rw [Nat.testBit_ldiff, Bool.and_eq_true, Bool.not_eq_true', hbits]
    constructor
    · exact fun hi ↦ ⟨Or.inl hi, hunnamed i hi⟩
    · rintro ⟨hi | ⟨f, -, hf⟩, hnone⟩
      · exact hi
      · exact absurd (testBit_definedMask.mpr ⟨f, hf⟩) (by simp [hnone])

/-- The value of an integer has the flags of its named bits and the undefined bits of the others, as
far as the integer fits into the storage. -/
theorem fromInt_eq_ok (hl : l.Named) (z : Int) :
    ∃ v, l.fromInt z = .ok v ∧
      (∀ f, f ∈ v.set ↔ ∃ p, (f, p) ∈ l.bits ∧ (l.truncate z).testBit p = true) ∧
      v.undefinedBits = ((l.truncate z).ldiff l.definedMask : ℕ) := by
  refine ⟨{ flags := ((l.bits.filter fun b ↦ (l.truncate z).testBit b.2).map (·.1)).eraseDups
            undefinedBits := without (l.truncate z) l.definedMask }, ?_, fun f ↦ ?_, ?_⟩
  · rw [fromInt, hl.checkWidth_eq_ok, Result.ok_bind]
    rfl
  · simp [FlagValue.set]
  · rw [without_eq]

section

variable (hset : ∀ f, f ∈ v.set ↔ ∃ p, (f, p) ∈ l.bits ∧ n.testBit p = true)
  (hundefined : v.undefinedBits = (n.ldiff l.definedMask : ℕ))

include hset hundefined

theorem normal_of_bits (hn : n < 2 ^ l.width.toNat) : l.Normal v := by
  refine ⟨fun f hf ↦ ?_, by omega, ?_, ?_⟩
  · obtain ⟨p, hp, -⟩ := (hset f).mp hf
    exact mem_names.mpr ⟨p, hp⟩
  · rw [hundefined]
    exact_mod_cast ldiff_lt_two_pow hn l.definedMask
  · rw [hundefined]
    refine congrArg Int.ofNat (Nat.eq_of_testBit_eq fun i ↦ ?_)
    rw [Nat.testBit_and, Nat.testBit_ldiff, Nat.zero_testBit]
    cases n.testBit i <;> cases l.definedMask.testBit i <;> rfl

/-- The value of a number has this number, because it agrees with it at every bit. -/
theorem numbers_of_bits (hl : l.WellFormed) (hn : n < 2 ^ l.width.toNat) : l.Numbers v n := by
  obtain ⟨m, hm⟩ := (normal_of_bits hset hundefined hn).exists_numbers hl
  have hsame : m = n := by
    refine Nat.eq_of_testBit_eq fun i ↦ ?_
    by_cases hi : l.definedMask.testBit i = true
    · obtain ⟨f, hf⟩ := testBit_definedMask.mp hi
      rw [Bool.eq_iff_iff, hm.named f i hf, hset]
      constructor
      · rintro ⟨p, hp, hbit⟩
        exact hl.named.eq_of_name hp hf ▸ hbit
      · exact fun hbit ↦ ⟨i, hf, hbit⟩
    · have hequal := congrArg (Nat.testBit · i)
        (Int.ofNat.inj (hm.unnamed.symm.trans hundefined))
      simpa [Nat.testBit_ldiff, hi] using hequal
  exact hsame ▸ hm

end

/-- **Numbers have values.** The value of a number that fits into the storage is normal, and the
number belongs to it. -/
theorem exists_fromInt_numbers (hl : l.WellFormed) (hn : n < 2 ^ l.width.toNat) :
    ∃ v, l.fromInt n = .ok v ∧ l.Normal v ∧ l.Numbers v n := by
  have htruncate : l.truncate n = n := by
    rw [truncate_of_lt (by omega) (by exact_mod_cast hn), Int.toNat_natCast]
  obtain ⟨v, hv, hset, hundefined⟩ := fromInt_eq_ok hl.named n
  rw [htruncate] at hset hundefined
  exact ⟨v, hv, normal_of_bits hset hundefined hn, numbers_of_bits hset hundefined hl hn⟩

/-- The flags of a value are known by the named bits of its number. -/
theorem Numbers.set_eq (h : l.Numbers v n) {s : Finset String} (hs : s ⊆ l.names)
    (hbits : ∀ f p, (f, p) ∈ l.bits → (n.testBit p = true ↔ f ∈ s)) : v.set = s := by
  refine Finset.ext fun f ↦ ?_
  by_cases hf : f ∈ l.names
  · obtain ⟨p, hp⟩ := mem_names.mp hf
    rw [← h.named f p hp, hbits f p hp]
  · exact iff_of_false (fun hv ↦ hf (h.known hv)) fun hv ↦ hf (hs hv)

/-! ## Operations on numbers -/

theorem merge_eq (ha : l.toInt a = .ok m) (hb : l.toInt b = .ok n) :
    l.merge a b = l.fromInt (m ||| n : ℕ) := by rw [merge, ha, hb]; rfl

theorem intersect_eq (ha : l.toInt a = .ok m) (hb : l.toInt b = .ok n) :
    l.intersect a b = l.fromInt (m &&& n : ℕ) := by rw [intersect, ha, hb]; rfl

theorem subtract_eq (ha : l.toInt a = .ok m) (hb : l.toInt b = .ok n) :
    l.subtract a b = l.fromInt (m.ldiff n : ℕ) := by rw [subtract, ha, hb, ← without_eq]; rfl

theorem complement_eq (ha : l.toInt a = .ok m) :
    l.complement a = l.fromInt (l.definedMask.ldiff m : ℕ) := by
  rw [complement, ha, ← without_eq]; rfl

theorem contains_eq (ha : l.toInt a = .ok m) (hb : l.toInt b = .ok n) :
    l.contains a b = .ok (m &&& n == n) := by rw [contains, ha, hb]; rfl

/-! ## Operations on sets -/

/-- **One operation on bits.** An operation that is computed bit by bit, and that sets no bit where
neither number has one, does to the flags and to the undefined bits what it does to one bit. -/
theorem exists_fromInt_bitwise {g : Bool → Bool → Bool} (hg : g false false = false)
    (hl : l.WellFormed) (ha : l.Numbers a m) (hb : l.Numbers b n)
    (hk : ∀ i, k.testBit i = g (m.testBit i) (n.testBit i)) {s : Finset String}
    (hs : ∀ f, f ∈ s ↔ g (decide (f ∈ a.set)) (decide (f ∈ b.set)) = true) :
    ∃ r, l.fromInt k = .ok r ∧ l.Normal r ∧ r.set = s ∧ ∃ u : ℕ, r.undefinedBits = u ∧
      ∀ i, u.testBit i =
        g ((m.ldiff l.definedMask).testBit i) ((n.ldiff l.definedMask).testBit i) := by
  have hlt : k < 2 ^ l.width.toNat := by
    refine Nat.lt_pow_two_of_testBit _ fun i hi ↦ ?_
    have hpow : 2 ^ l.width.toNat ≤ 2 ^ i := Nat.pow_le_pow_right Nat.two_pos hi
    rw [hk, Nat.testBit_lt_two_pow (ha.lt.trans_le hpow),
      Nat.testBit_lt_two_pow (hb.lt.trans_le hpow), hg]
  obtain ⟨r, hr, hnormal, hnumbers⟩ := exists_fromInt_numbers hl hlt
  refine ⟨r, hr, hnormal, hnumbers.set_eq (fun f hf ↦ ?_) fun f p hf ↦ ?_,
    k.ldiff l.definedMask, hnumbers.unnamed, fun i ↦ ?_⟩
  · -- A flag that neither value has is not in the result.
    by_contra hunknown
    have hfa : f ∉ a.set := fun h ↦ hunknown (ha.known h)
    have hfb : f ∉ b.set := fun h ↦ hunknown (hb.known h)
    rw [hs, decide_eq_false hfa, decide_eq_false hfb, hg] at hf
    exact Bool.false_ne_true hf
  · have hma : m.testBit p = decide (f ∈ a.set) := by
      rw [Bool.eq_iff_iff, ha.named f p hf, decide_eq_true_eq]
    have hnb : n.testBit p = decide (f ∈ b.set) := by
      rw [Bool.eq_iff_iff, hb.named f p hf, decide_eq_true_eq]
    rw [hs, hk, hma, hnb]
  · rw [Nat.testBit_ldiff, Nat.testBit_ldiff, Nat.testBit_ldiff, hk]
    cases l.definedMask.testBit i <;> simp [hg]

theorem merge_refines (hl : l.WellFormed) (ha : l.Numbers a m) (hb : l.Numbers b n) :
    ∃ r, l.merge a b = .ok r ∧ l.Normal r ∧
      r.Is (a.set ∪ b.set) (Int.lor a.undefinedBits b.undefinedBits) := by
  obtain ⟨r, hr, hnormal, hset, u, hu, hbits⟩ := exists_fromInt_bitwise (g := or) rfl hl ha hb
    (Nat.testBit_or m n) (s := a.set ∪ b.set) (fun f ↦ by simp)
  refine ⟨r, (merge_eq ha.toInt_eq hb.toInt_eq).trans hr, hnormal, hset, ?_⟩
  rw [hu, ha.unnamed, hb.unnamed]
  exact congrArg Int.ofNat (Nat.eq_of_testBit_eq fun i ↦ by rw [hbits, Nat.testBit_or])

theorem intersect_refines (hl : l.WellFormed) (ha : l.Numbers a m) (hb : l.Numbers b n) :
    ∃ r, l.intersect a b = .ok r ∧ l.Normal r ∧
      r.Is (a.set ∩ b.set) (Int.land a.undefinedBits b.undefinedBits) := by
  obtain ⟨r, hr, hnormal, hset, u, hu, hbits⟩ := exists_fromInt_bitwise (g := and) rfl hl ha hb
    (Nat.testBit_and m n) (s := a.set ∩ b.set) (fun f ↦ by simp)
  refine ⟨r, (intersect_eq ha.toInt_eq hb.toInt_eq).trans hr, hnormal, hset, ?_⟩
  rw [hu, ha.unnamed, hb.unnamed]
  exact congrArg Int.ofNat (Nat.eq_of_testBit_eq fun i ↦ by rw [hbits, Nat.testBit_and])

theorem subtract_refines (hl : l.WellFormed) (ha : l.Numbers a m) (hb : l.Numbers b n) :
    ∃ r, l.subtract a b = .ok r ∧ l.Normal r ∧
      r.Is (a.set \ b.set) (Int.ldiff a.undefinedBits b.undefinedBits) := by
  obtain ⟨r, hr, hnormal, hset, u, hu, hbits⟩ := exists_fromInt_bitwise (g := fun x y ↦ x && !y)
    rfl hl ha hb (Nat.testBit_ldiff m n) (s := a.set \ b.set) (fun f ↦ by simp)
  refine ⟨r, (subtract_eq ha.toInt_eq hb.toInt_eq).trans hr, hnormal, hset, ?_⟩
  rw [hu, ha.unnamed, hb.unnamed]
  exact congrArg Int.ofNat (Nat.eq_of_testBit_eq fun i ↦ by rw [hbits, ← Nat.testBit_ldiff])

/-- The complement has no undefined bits: it is computed within the named bits. -/
theorem complement_refines (hl : l.WellFormed) (ha : l.Numbers a m) :
    ∃ r, l.complement a = .ok r ∧ l.Normal r ∧ r.Is (l.names \ a.set) 0 := by
  have hlt : l.definedMask.ldiff m < 2 ^ l.width.toNat := by
    refine Nat.lt_pow_two_of_testBit _ fun i hi ↦ ?_
    rw [Nat.testBit_ldiff, Bool.and_eq_false_iff]
    refine Or.inl (Bool.eq_false_iff.mpr fun hnamed ↦ ?_)
    obtain ⟨f, hf⟩ := testBit_definedMask.mp hnamed
    exact absurd (hl.lt_width hf) (by omega)
  obtain ⟨r, hr, hnormal, hnumbers⟩ := exists_fromInt_numbers hl hlt
  refine ⟨r, (complement_eq ha.toInt_eq).trans hr, hnormal,
    hnumbers.set_eq Finset.sdiff_subset fun f p hf ↦ ?_, ?_⟩
  · have hnamed : l.definedMask.testBit p = true := testBit_definedMask.mpr ⟨f, hf⟩
    have hnot : (!m.testBit p) = true ↔ f ∉ a.set := by
      rw [Bool.not_eq_true', ← Bool.not_eq_true, ha.named f p hf]
    rw [Nat.testBit_ldiff, hnamed, Bool.true_and, hnot, Finset.mem_sdiff, mem_names]
    exact ⟨fun h ↦ ⟨⟨p, hf⟩, h⟩, fun h ↦ h.2⟩
  · rw [hnumbers.unnamed]
    refine congrArg Int.ofNat (Nat.eq_of_testBit_eq fun i ↦ ?_)
    rw [Nat.testBit_ldiff, Nat.testBit_ldiff, Nat.zero_testBit]
    cases l.definedMask.testBit i <;> simp

theorem contains_refines (ha : l.Numbers a m) (hb : l.Numbers b n) :
    ∃ holds, l.contains a b = .ok holds ∧ (holds = true ↔ b.set ⊆ a.set ∧
      Int.land b.undefinedBits a.undefinedBits = b.undefinedBits) := by
  refine ⟨_, contains_eq ha.toInt_eq hb.toInt_eq, ?_⟩
  have hland : Int.land b.undefinedBits a.undefinedBits = b.undefinedBits ↔
      n.ldiff l.definedMask &&& m.ldiff l.definedMask = n.ldiff l.definedMask := by
    rw [ha.unnamed, hb.unnamed]
    exact Int.ofNat_inj
  rw [beq_iff_eq, Nat.and_comm, and_eq_left_iff, hland, and_eq_left_iff]
  constructor
  · refine fun h ↦ ⟨fun f hf ↦ ?_, fun i hi ↦ ?_⟩
    · obtain ⟨p, hp⟩ := mem_names.mp (hb.known hf)
      exact (ha.named f p hp).mp (h p ((hb.named f p hp).mpr hf))
    · rw [Nat.testBit_ldiff, Bool.and_eq_true] at hi ⊢
      exact ⟨h i hi.1, hi.2⟩
  · rintro ⟨hflags, hbits⟩ i hi
    by_cases hnamed : l.definedMask.testBit i = true
    · obtain ⟨f, hf⟩ := testBit_definedMask.mp hnamed
      exact (ha.named f i hf).mpr (hflags ((hb.named f i hf).mp hi))
    · have hrest := hbits i (by simp [Nat.testBit_ldiff, hi, hnamed])
      rw [Nat.testBit_ldiff, Bool.and_eq_true] at hrest
      exact hrest.1

/-- A value contains another one exactly if their union adds nothing to it. -/
theorem merge_is_left_iff (hl : l.WellFormed) (ha : l.Numbers a m) (hb : l.Numbers b n) :
    (∃ r, l.merge a b = .ok r ∧ r.Is a.set a.undefinedBits) ↔
      b.set ⊆ a.set ∧ Int.land b.undefinedBits a.undefinedBits = b.undefinedBits := by
  obtain ⟨r, hr, -, hset, hundefined⟩ := merge_refines hl ha hb
  have hbits : Int.lor a.undefinedBits b.undefinedBits = a.undefinedBits ↔
      Int.land b.undefinedBits a.undefinedBits = b.undefinedBits := by
    rw [ha.unnamed, hb.unnamed]
    exact Int.ofNat_inj.trans (or_eq_left_iff.trans (and_eq_left_iff.symm.trans Int.ofNat_inj.symm))
  rw [← hbits, ← Finset.union_eq_left, ← hset, ← hundefined]
  constructor
  · rintro ⟨r', hr', hset', hundefined'⟩
    obtain rfl := Except.ok.inj (hr.symm.trans hr')
    exact ⟨hset', hundefined'⟩
  · exact fun h ↦ ⟨r, hr, h⟩

/-! ## The result -/

/-- **The operations are those of sets.** In a layout whose flags have names and bits of their own,
the operations on normal values are union, intersection, difference and complement of their flags
and act on the undefined bits alike, and one value contains another exactly if it has its flags and
undefined bits, which is to say if their union adds nothing to it. Any other values with known flags
may be replaced by those of their numbers, and what an operation gives is normal. -/
theorem operations_refine_sets (hl : l.WellFormed) :
    (∀ a b, l.Normal a → l.Normal b →
      (∃ r, l.merge a b = .ok r ∧
        r.Is (a.set ∪ b.set) (Int.lor a.undefinedBits b.undefinedBits)) ∧
      (∃ r, l.intersect a b = .ok r ∧
        r.Is (a.set ∩ b.set) (Int.land a.undefinedBits b.undefinedBits)) ∧
      (∃ r, l.subtract a b = .ok r ∧
        r.Is (a.set \ b.set) (Int.ldiff a.undefinedBits b.undefinedBits)) ∧
      (∃ r, l.complement a = .ok r ∧ r.Is (l.names \ a.set) 0) ∧
      ∃ holds, l.contains a b = .ok holds ∧
        (holds = true ↔ b.set ⊆ a.set ∧
          Int.land b.undefinedBits a.undefinedBits = b.undefinedBits) ∧
        (holds = true ↔ ∃ r, l.merge a b = .ok r ∧ r.Is a.set a.undefinedBits)) ∧
    ∀ a b, l.Knows a → l.Knows b → ∃ m n a' b',
      l.toInt a = .ok m ∧ l.fromInt m = .ok a' ∧ l.toInt b = .ok n ∧ l.fromInt n = .ok b' ∧
      l.Normal a' ∧ l.Normal b' ∧
      (∃ r, l.merge a b = .ok r ∧ l.merge a' b' = .ok r ∧ l.Normal r) ∧
      (∃ r, l.intersect a b = .ok r ∧ l.intersect a' b' = .ok r ∧ l.Normal r) ∧
      (∃ r, l.subtract a b = .ok r ∧ l.subtract a' b' = .ok r ∧ l.Normal r) ∧
      (∃ r, l.complement a = .ok r ∧ l.complement a' = .ok r ∧ l.Normal r) ∧
      ∃ holds, l.contains a b = .ok holds ∧ l.contains a' b' = .ok holds := by
  refine ⟨fun a b hna hnb ↦ ?_, fun a b hka hkb ↦ ?_⟩
  · obtain ⟨m, ha⟩ := hna.exists_numbers hl
    obtain ⟨n, hb⟩ := hnb.exists_numbers hl
    obtain ⟨union, hmerge, -, hunion⟩ := merge_refines hl ha hb
    obtain ⟨common, hintersect, -, hcommon⟩ := intersect_refines hl ha hb
    obtain ⟨rest, hsubtract, -, hrest⟩ := subtract_refines hl ha hb
    obtain ⟨others, hcomplement, -, hothers⟩ := complement_refines hl ha
    obtain ⟨holds, hcontains, hholds⟩ := contains_refines ha hb
    exact ⟨⟨union, hmerge, hunion⟩, ⟨common, hintersect, hcommon⟩, ⟨rest, hsubtract, hrest⟩,
      ⟨others, hcomplement, hothers⟩, holds, hcontains, hholds,
      hholds.trans (merge_is_left_iff hl ha hb).symm⟩
  · -- The operations look at the numbers only, and these are the same.
    obtain ⟨m, hm, hltm, -⟩ := toInt_eq_ok hl hka
    obtain ⟨n, hn, hltn, -⟩ := toInt_eq_ok hl hkb
    obtain ⟨a', hm', hna, ha⟩ := exists_fromInt_numbers hl hltm
    obtain ⟨b', hn', hnb, hb⟩ := exists_fromInt_numbers hl hltn
    obtain ⟨union, hmerge, hunion, -⟩ := merge_refines hl ha hb
    obtain ⟨common, hintersect, hcommon, -⟩ := intersect_refines hl ha hb
    obtain ⟨rest, hsubtract, hrest, -⟩ := subtract_refines hl ha hb
    obtain ⟨others, hcomplement, hothers, -⟩ := complement_refines hl ha
    refine ⟨m, n, a', b', hm, hm', hn, hn', hna, hnb, ⟨union, ?_, hmerge, hunion⟩,
      ⟨common, ?_, hintersect, hcommon⟩, ⟨rest, ?_, hsubtract, hrest⟩,
      ⟨others, ?_, hcomplement, hothers⟩,
      _, contains_eq hm hn, contains_eq ha.toInt_eq hb.toInt_eq⟩
    · rw [merge_eq hm hn, ← merge_eq ha.toInt_eq hb.toInt_eq, hmerge]
    · rw [intersect_eq hm hn, ← intersect_eq ha.toInt_eq hb.toInt_eq, hintersect]
    · rw [subtract_eq hm hn, ← subtract_eq ha.toInt_eq hb.toInt_eq, hsubtract]
    · rw [complement_eq hm, ← complement_eq ha.toInt_eq, hcomplement]

/-- Three flags in a byte, with a bit between them that has no name. -/
def gappedLayout : FlagLayout where
  name := "Access"
  width := 8
  bits := [("read", 0), ("write", 1), ("share", 3)]

/-- Two flags with an undefined bit that they share, and a flag with every bit set beside it. -/
theorem operations_refine_sets_gapped :
    gappedLayout.WellFormed ∧
      gappedLayout.Normal { flags := ["read"], undefinedBits := 0x90 } ∧
      gappedLayout.Normal { flags := ["share"], undefinedBits := 0x84 } ∧
      (∃ r, gappedLayout.merge { flags := ["read"], undefinedBits := 0x90 }
        { flags := ["share"], undefinedBits := 0x84 } = .ok r ∧ r.Is {"read", "share"} 0x94) ∧
      ∃ r, gappedLayout.merge { flags := ["read"], undefinedBits := -1 } {} = .ok r ∧
        gappedLayout.Normal r := by
  have hl : gappedLayout.WellFormed := ⟨by decide, by decide, by decide, by decide⟩
  have ha : gappedLayout.Normal { flags := ["read"], undefinedBits := 0x90 } :=
    ⟨by decide, by decide, by decide, by decide⟩
  have hb : gappedLayout.Normal { flags := ["share"], undefinedBits := 0x84 } :=
    ⟨by decide, by decide, by decide, by decide⟩
  obtain ⟨hnormal, hany⟩ := operations_refine_sets hl
  obtain ⟨⟨r, hr, hset, hbits⟩, -⟩ := hnormal _ _ ha hb
  obtain ⟨m, n, a', b', -, -, -, -, -, -, ⟨r', hr', -, hnormal'⟩, -⟩ :=
    hany { flags := ["read"], undefinedBits := -1 } {} (by decide) (by decide)
  exact ⟨hl, ha, hb, ⟨r, hr, hset.trans (by decide), hbits.trans (by decide)⟩, r', hr', hnormal'⟩

end FlagLayout

end XrBindings
