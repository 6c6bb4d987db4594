import XrBindings.Proofs.Naming.Unique
import XrBindings.Proofs.Zig.Identifier

/-!
# Numbers behind names

Names are written as identifiers before they are made distinct. A number behind a plain word gives
a plain word, and never one that means something in the language. Behind an escaped name the number
stands outside the quotes, so that the whole is no identifier any more. Of names that are given out
in turn one is spoilt in this way exactly if both names of a pair are in use when its turn comes,
and the long one is escaped.
-/

namespace XrBindings.Naming

open XrBindings.Zig

variable {short long name text : String} {used : List String} {cs : List Char}
  {candidates : List (String × String)} {c : String × String}

/-! ## Words with a number -/

theorem toList_numbered (name : String) (n : ℕ) :
    (numbered name n).toList = name.toList ++ '_' :: Nat.toDigits 10 n := by
  rw [numbered, String.toList_append, String.toList_append, List.append_assoc, ← Nat.toList_repr]
  rfl

theorem isAlphanum_of_mem_number {n : ℕ} {d : Char} (h : d ∈ '_' :: Nat.toDigits 10 n) :
    d.isAlphanum = true ∨ d = '_' := by
  rcases List.mem_cons.mp h with hd | hd
  · exact Or.inr hd
  · have hdigit := Nat.isDigit_of_mem_toDigits (by decide) (by decide) hd
    exact Or.inl (by simp [Char.isAlphanum, hdigit])

theorem exists_getLast?_numbered (name : String) (n : ℕ) :
    ∃ d, (numbered name n).toList.getLast? = some d ∧ d.isDigit = true := by
  have hne : Nat.toDigits 10 n ≠ [] := Nat.toDigits_ne_nil
  refine ⟨_, ?_, Nat.isDigit_of_mem_toDigits (by decide) (by decide) (List.getLast_mem hne)⟩
  rw [toList_numbered, List.getLast?_append_of_ne_nil _ (List.cons_ne_nil _ _),
    List.getLast?_cons_of_ne_nil hne, List.getLast?_eq_some_getLast hne]

theorem isPlainWord_append {ds : List Char} (h : isPlainWord cs = true)
    (hds : ∀ d ∈ ds, d.isAlphanum = true ∨ d = '_') : isPlainWord (cs ++ ds) = true := by
  cases cs with
  | nil => exact absurd h (by simp [isPlainWord])
  | cons c cs =>
    simp only [isPlainWord, Bool.and_eq_true, Bool.or_eq_true, beq_iff_eq, List.all_eq_true] at h
    simp only [List.cons_append, isPlainWord, Bool.and_eq_true, Bool.or_eq_true, beq_iff_eq,
      List.all_eq_true, List.forall_mem_append]
    exact ⟨h.1, h.2, hds⟩

/-- In an integer type no underscore follows the first letter. -/
theorem isIntegerType_append_underscore (h : cs ≠ []) (ds : List Char) :
    isIntegerType (cs ++ '_' :: ds) = false := by
  cases cs with
  | nil => exact absurd rfl h
  | cons c cs => simp [isIntegerType]

theorem isIdentifier_numbered (h : isPlainWord name.toList = true) (n : ℕ) :
    IsIdentifier (numbered name n) := by
  have hkeywords : ∀ k ∈ keywords, '_' ∉ k.toList := by decide
  have hprimitives : ∀ p ∈ primitives, '_' ∈ p.toList →
      p.toList.getLast?.any (·.isDigit) = false := by decide
  have hunderscore : '_' ∈ (numbered name n).toList := by simp [toList_numbered]
  obtain ⟨d, hlast, hdigit⟩ := exists_getLast?_numbered name n
  refine Or.inl ⟨isValidIdentifier_iff.mpr ⟨?_, fun hblank ↦ ?_, fun hkeyword ↦ ?_⟩, ?_⟩
  · rw [toList_numbered]
    exact isPlainWord_append h fun d ↦ isAlphanum_of_mem_number
  · rw [hblank] at hlast
    obtain rfl : '_' = d := by simpa using hlast
    exact absurd hdigit (by decide)
  · exact hkeywords _ hkeyword hunderscore
  · rw [isPrimitive, Bool.or_eq_false_iff]
    refine ⟨?_, ?_⟩
    · rw [toList_numbered]
      refine isIntegerType_append_underscore (fun hnil ↦ ?_) _
      rw [hnil] at h
      exact absurd h (by simp [isPlainWord])
    · rw [Bool.eq_false_iff, ne_eq, List.contains_iff_mem]
      intro hprimitive
      have hends := hprimitives _ hprimitive hunderscore
      rw [hlast, Option.any_some, hdigit] at hends
      exact Bool.false_ne_true hends.symm

/-- **A number does not belong to an escaped name.** An identifier with a number is an identifier
exactly if it is a plain word. -/
theorem isIdentifier_numbered_iff (h : IsIdentifier text) (n : ℕ) :
    IsIdentifier (numbered text n) ↔ isPlainWord text.toList = true := by
  refine ⟨fun hnumbered ↦ ?_, fun hplain ↦ isIdentifier_numbered hplain n⟩
  rcases hnumbered.isPlainWord_or_getLast? with hplain | hlast
  · rcases h with ⟨hvalid, -⟩ | ⟨body, rfl, -⟩
    · exact (isValidIdentifier_iff.mp hvalid).1
    · -- The beginning of the escaped name is still there.
      rw [toList_numbered, String.toList_ofList] at hplain
      exact absurd hplain (by simp [isPlainWord])
  · obtain ⟨d, hd, hdigit⟩ := exists_getLast?_numbered text n
    obtain rfl : d = '"' := Option.some.inj (hd.symm.trans hlast)
    exact absurd hdigit (by decide)

/-! ## Names given out in turn -/

theorem isIdentifier_uniqueName_iff (hshort : IsIdentifier short) (hlong : IsIdentifier long) :
    IsIdentifier (uniqueName short long used) ↔
      ¬(short ∈ used ∧ long ∈ used ∧ isPlainWord long.toList = false) := by
  by_cases hs : short ∈ used
  · by_cases hl : long ∈ used
    · obtain ⟨n, hn⟩ := exists_uniqueName_eq_numbered hs hl
      rw [hn, isIdentifier_numbered_iff hlong]
      simp [hs, hl]
    · rw [uniqueName_of_notMem_long hs hl]
      simp [hl, hlong]
  · rw [uniqueName_of_notMem_short hs]
    simp [hs, hshort]

/-- When the turn of a pair comes, both of its names are in use, and the long one is escaped. -/
def NumbersEscaped (candidates : List (String × String)) : Prop :=
  ∃ before c after, candidates = before ++ c :: after ∧ c.1 ∈ allot before ∧ c.2 ∈ allot before ∧
    isPlainWord c.2.toList = false

theorem not_numbersEscaped_of_forall (h : ∀ c ∈ candidates, isPlainWord c.2.toList = true) :
    ¬NumbersEscaped candidates := by
  rintro ⟨before, c, after, rfl, -, -, hescaped⟩
  rw [h c (by simp)] at hescaped
  exact absurd hescaped (by simp)

theorem numbersEscaped_concat_iff : NumbersEscaped (candidates ++ [c]) ↔
    NumbersEscaped candidates ∨
      c.1 ∈ allot candidates ∧ c.2 ∈ allot candidates ∧ isPlainWord c.2.toList = false := by
  constructor
  · rintro ⟨before, c', after, hsplit, h⟩
    rcases List.eq_nil_or_concat after with rfl | ⟨after, last, rfl⟩
    · obtain ⟨rfl, hc⟩ := List.append_inj' hsplit rfl
      obtain rfl := List.singleton_inj.mp hc
      exact Or.inr h
    · rw [List.concat_eq_append, ← List.cons_append, ← List.append_assoc] at hsplit
      exact Or.inl ⟨before, c', after, (List.append_inj' hsplit rfl).1, h⟩
  · rintro (⟨before, c', after, rfl, h⟩ | h)
    · exact ⟨before, c', after ++ [c], by simp, h⟩
    · exact ⟨candidates, c, [], rfl, h⟩

/-- Where all names of the pairs are identifiers, so are all that are given out, unless an escaped
one needs a number. -/
theorem forall_isIdentifier_allot_iff
    (h : ∀ c ∈ candidates, IsIdentifier c.1 ∧ IsIdentifier c.2) :
    (∀ name ∈ allot candidates, IsIdentifier name) ↔ ¬NumbersEscaped candidates := by
  induction candidates using List.reverseRecOn with
  | nil => simp [allot, NumbersEscaped]
  | append_singleton candidates c ih =>
    rw [List.forall_mem_append, List.forall_mem_singleton] at h
    rw [allot_concat, List.forall_mem_append, List.forall_mem_singleton, ih h.1,
      isIdentifier_uniqueName_iff h.2.1 h.2.2, numbersEscaped_concat_iff, not_or]

end XrBindings.Naming
