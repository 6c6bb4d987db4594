import Mathlib.Data.List.Basic
import Mathlib.Data.List.TakeWhile
import XrBindings.Text.Cut
import XrBindings.Text.Word

/-!
# Where texts are cut

Blanks separate: no blank can stand inside a word, trimming takes off the blanks around a text and
nothing else, and a text is split at its blanks into what stands between them. Looking for a text
finds its last occurrence at the end where the text ends with it, and its first occurrence where
nothing that begins earlier can be continued to it.
-/

namespace XrBindings.Text

variable {c : Char} {u v w needle : List Char}

/-! ## Blanks and words -/

theorem isWordChar_eq_false_of_isBlank (h : isBlank c = true) : isWordChar c = false := by
  -- No range of letters or numbers meets a range of blanks.
  have hapart : ∀ b ∈ blankRanges, (b.2 < 95 ∨ 95 < b.1) ∧
      ∀ l ∈ letterOrNumberRanges, b.2 < l.1 ∨ l.2 < b.1 := by decide +kernel
  obtain ⟨b, hb, hblank⟩ := List.any_eq_true.mp h
  obtain ⟨hunderscore, hletters⟩ := hapart b hb
  simp only [Bool.and_eq_true, decide_eq_true_eq] at hblank
  rw [isWordChar, Bool.or_eq_false_iff, beq_eq_false_iff_ne, CodeRanges.contains,
    List.any_eq_false]
  constructor
  · rintro rfl
    have hcode : '_'.toNat = 95 := rfl
    omega
  · intro l hl hword
    have hbl := hletters l hl
    simp only [Bool.and_eq_true, decide_eq_true_eq] at hword
    omega

theorem isBlank_eq_false_of_isWordChar (h : isWordChar c = true) : isBlank c = false := by
  by_contra hblank
  rw [Bool.not_eq_false] at hblank
  exact absurd h (by simp [isWordChar_eq_false_of_isBlank hblank])

theorem toNat_of_isAlphanum (h : c.isAlphanum = true) :
    0x30 ≤ c.toNat ∧ c.toNat ≤ 0x39 ∨ 0x41 ≤ c.toNat ∧ c.toNat ≤ 0x5A ∨
      0x61 ≤ c.toNat ∧ c.toNat ≤ 0x7A := by
  rcases Bool.or_eq_true_iff.mp h with halpha | hdigit
  · rcases Bool.or_eq_true_iff.mp halpha with hupper | hlower
    · exact Or.inr (Or.inl (of_decide_eq_true hupper))
    · obtain ⟨hge, hle⟩ := Bool.and_eq_true_iff.mp hlower
      exact Or.inr (Or.inr ⟨of_decide_eq_true hge, of_decide_eq_true hle⟩)
  · obtain ⟨hge, hle⟩ := Bool.and_eq_true_iff.mp hdigit
    exact Or.inl ⟨of_decide_eq_true hge, of_decide_eq_true hle⟩

theorem isWordChar_of_isAlphanum (h : c.isAlphanum = true) : isWordChar c = true := by
  have hranges : ∀ r ∈ [(0x30, 0x39), (0x41, 0x5A), (0x61, 0x7A)], r ∈ letterOrNumberRanges := by
    decide
  have hwithin : ∀ r ∈ [(0x30, 0x39), (0x41, 0x5A), (0x61, 0x7A)], r.1 ≤ c.toNat →
      c.toNat ≤ r.2 → isWordChar c = true := fun r hr hfirst hlast ↦
    Bool.or_eq_true_iff.mpr (Or.inr (List.any_eq_true.mpr
      ⟨r, hranges r hr, by simp [hfirst, hlast]⟩))
  obtain ⟨hfirst, hlast⟩ | ⟨hfirst, hlast⟩ | ⟨hfirst, hlast⟩ := toNat_of_isAlphanum h
  · exact hwithin (0x30, 0x39) (by simp) hfirst hlast
  · exact hwithin (0x41, 0x5A) (by simp) hfirst hlast
  · exact hwithin (0x61, 0x7A) (by simp) hfirst hlast

/-! ## Trimming -/

/-- The text neither begins nor ends with a blank. -/
structure Tight (cs : List Char) : Prop where
  head : ∀ c ∈ cs.head?, isBlank c = false
  last : ∀ c ∈ cs.getLast?, isBlank c = false

theorem tight_of_forall (h : ∀ c ∈ w, isBlank c = false) : Tight w where
  head c hc := h c (List.mem_of_mem_head? hc)
  last c hc := h c (List.mem_of_mem_getLast? hc)

/-- Trimming takes off the blanks around a text. -/
theorem trimChars_append (hu : ∀ c ∈ u, isBlank c = true) (hv : ∀ c ∈ v, isBlank c = true)
    (hw : Tight w) : trimChars (u ++ w ++ v) = w := by
  have hfirst : (u ++ w ++ v).dropWhile isBlank = w ++ v ∨ w = [] := by
    cases w with
    | nil => exact Or.inr rfl
    | cons c w =>
      rw [List.append_assoc, List.dropWhile_append_of_pos hu, List.cons_append,
        List.dropWhile_cons_of_neg (by simp [hw.head c rfl])]
      exact Or.inl rfl
  obtain hfirst | rfl := hfirst
  · rw [trimChars, hfirst, dropEndWhile, List.reverse_append,
      List.dropWhile_append_of_pos fun c hc ↦ hv c (List.mem_reverse.mp hc)]
    cases hrev : w.reverse with
    | nil => rw [List.reverse_eq_nil_iff.mp hrev]; rfl
    | cons c rest =>
      have hlast : c ∈ w.getLast? := by rw [← List.head?_reverse, hrev]; rfl
      rw [List.dropWhile_cons_of_neg (by simp [hw.last c hlast]), ← hrev, List.reverse_reverse]
  · have hblank : ∀ c ∈ u ++ [] ++ v, isBlank c = true := by
      simpa [or_imp, forall_and] using ⟨hu, hv⟩
    have hfirst : (u ++ [] ++ v).dropWhile isBlank = [] := List.dropWhile_eq_nil_iff.mpr hblank
    rw [trimChars, hfirst]
    rfl

theorem trimChars_of_tight (hw : Tight w) : trimChars w = w := by
  simpa using trimChars_append (u := []) (v := []) (by simp) (by simp) hw

/-! ## Words between blanks -/

/-- The word stands in the text with a blank or an end on both sides. -/
def HoldsWord (word text : List Char) : Prop :=
  ∃ before after, text = before ++ word ++ after ∧ (∀ c ∈ before.getLast?, isBlank c = true) ∧
    ∀ c ∈ after.head?, isBlank c = true

theorem holdsWord_of_mem_splitOnP {text : List Char} (h : w ∈ text.splitOnP isBlank) :
    HoldsWord w text := by
  by_cases hnone : ∀ c ∈ text, isBlank c = false
  · rw [List.splitOnP_eq_singleton hnone, List.mem_singleton] at h
    exact ⟨[], [], by simp [h], by simp, by simp⟩
  · -- The piece is the one before the first blank, or it stands behind this blank.
    obtain ⟨u, c, rest, rfl, hu, hc⟩ : ∃ u c rest, text = u ++ c :: rest ∧
        (∀ d ∈ u, isBlank d = false) ∧ isBlank c = true := by
      obtain ⟨c, hc⟩ := Option.isSome_iff_exists.mp
        (List.find?_isSome.mpr (by simpa using hnone) : (text.find? isBlank).isSome)
      obtain ⟨hc, u, rest, htext, hu⟩ := List.find?_eq_some_iff_append.mp hc
      exact ⟨u, c, rest, htext, by simpa using hu, hc⟩
    rw [List.splitOnP_append_cons_of_forall_mem hu c hc, List.mem_cons] at h
    obtain rfl | h := h
    · exact ⟨[], c :: rest, by simp, by simp, by simp [hc]⟩
    · obtain ⟨before, after, rfl, hbefore, hafter⟩ := holdsWord_of_mem_splitOnP h
      refine ⟨u ++ c :: before, after, by simp, ?_, hafter⟩
      intro d hd
      rw [List.getLast?_append_cons, List.getLast?_cons] at hd
      cases hlast : before.getLast? with
      | none => simp_all
      | some last => simp_all
termination_by text.length

/-- **The pieces between the blanks of a text are its words.** -/
theorem mem_splitOnP_isBlank_iff (hw : ∀ c ∈ w, isBlank c = false) {text : List Char} :
    w ∈ text.splitOnP isBlank ↔ HoldsWord w text := by
  refine ⟨holdsWord_of_mem_splitOnP, ?_⟩
  rintro ⟨before, after, rfl, hbefore, hafter⟩
  have hrest : w ∈ (w ++ after).splitOnP isBlank := by
    cases after with
    | nil => simp [List.splitOnP_eq_singleton hw]
    | cons c after =>
      rw [List.splitOnP_append_cons_of_forall_mem hw c (hafter c rfl)]
      exact List.mem_cons_self
  rcases List.eq_nil_or_concat before with rfl | ⟨before, c, rfl⟩
  · exact hrest
  · rw [List.concat_eq_append, List.append_assoc, List.append_assoc, List.singleton_append,
      List.splitOnP_append_cons _ _ (hbefore c (by simp))]
    exact List.mem_append_right _ hrest

/-! ## Occurrences -/

theorem findLastChars?_eq_none_of_length (h : u.length < needle.length) :
    findLastChars? needle u = none := by
  induction u with
  | nil =>
    cases needle with
    | nil => exact absurd h (by simp)
    | cons c needle => rfl
  | cons c u ih =>
    have hlength : u.length < needle.length := Nat.lt_of_succ_lt h
    have hprefix : needle.isPrefixOf (c :: u) = false := by
      rw [Bool.eq_false_iff, ne_eq, List.isPrefixOf_iff_prefix]
      exact fun hle ↦ absurd hle.length_le (Nat.not_le.mpr h)
    rw [findLastChars?, ih hlength, hprefix]
    rfl

theorem findLastChars?_append (hneedle : needle ≠ []) (u : List Char) :
    findLastChars? needle (u ++ needle) = some u.length := by
  induction u with
  | nil =>
    obtain ⟨c, rest, rfl⟩ := List.exists_cons_of_ne_nil hneedle
    rw [List.nil_append, findLastChars?, findLastChars?_eq_none_of_length (by simp)]
    simp
  | cons c u ih =>
    rw [List.cons_append, findLastChars?, ih]
    rfl

/-- What is looked for is found where it stands, unless it already begins earlier. -/
theorem findChars?_append (hneedle : needle ≠ [])
    (h : ∀ s, s ≠ [] → s <:+ u → ¬needle <+: s ++ (needle ++ v)) :
    findChars? needle (u ++ (needle ++ v)) = some u.length := by
  induction u with
  | nil =>
    obtain ⟨c, rest, rfl⟩ := List.exists_cons_of_ne_nil hneedle
    rw [List.nil_append, List.cons_append, findChars?, if_pos]
    · rfl
    · rw [← List.cons_append, List.isPrefixOf_iff_prefix]
      exact List.prefix_append _ _
  | cons c u ih =>
    have hstart : needle.isPrefixOf (c :: (u ++ (needle ++ v))) ≠ true := by
      rw [ne_eq, List.isPrefixOf_iff_prefix]
      exact h (c :: u) (by simp) (List.suffix_refl _)
    rw [List.cons_append, findChars?, if_neg hstart,
      ih fun s hs hsuffix ↦ h s hs (hsuffix.trans (List.suffix_cons _ _))]
    rfl

end XrBindings.Text
