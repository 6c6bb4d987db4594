import XrBindings.Naming.Renderer
import XrBindings.Proofs.Naming.LetterCase
import XrBindings.Proofs.Naming.Numbered
import XrBindings.Proofs.Naming.Styles
import XrBindings.Proofs.Result

/-!
# Names in small letters

Fields, flags and values are named in small letters. No such name has a capital of ASCII, whatever
the letters of the registry are: no small form outside ASCII is a capital within it, an escape is
written in small digits, and a number has no letters. What is written in camel case beside these
names is therefore different from all of them.
-/

namespace XrBindings.Naming

open XrBindings.Zig

variable {c : Char} {cs : List Char}

/-! ## Small forms -/

/-- A code point beyond the capitals is no capital, also where no character has it. -/
theorem isCapital_ofNat {n : ℕ} (h : 90 < n) : isCapital (Char.ofNat n) = false := by
  by_cases hvalid : n.isValidChar
  · have hcode : (Char.ofNat n).toNat = n := congrArg Char.toNat (dif_pos hvalid)
    rw [Bool.eq_false_iff, ne_eq, isCapital_iff, hcode]
    omega
  · have hnone : Char.ofNat n = '\x00' := dif_neg hvalid
    rw [hnone]
    decide

/-- No character has a capital of ASCII for its small form: shifts lead beyond the capitals, and
capitals are shifted. -/
theorem isCapital_of_mem_smallOf {d : Char} (h : c ∈ Text.smallOf d) : isCapital c = false := by
  have hbeyond : ∀ s ∈ Text.smallShifts, 90 < s.run.first + s.offset := by decide +kernel
  rw [Text.smallOf] at h
  split at h
  · rcases List.mem_pair.mp h with rfl | rfl <;> decide
  · split at h
    · next s hs =>
      obtain rfl := List.mem_singleton.mp h
      have hshift := hbeyond s (List.mem_of_find?_eq_some hs)
      have hrun := List.find?_some (p := fun s : Text.CaseShift ↦ s.run.contains d) hs
      simp only [Text.CodeRun.contains, Bool.and_eq_true, decide_eq_true_eq] at hrun
      exact isCapital_ofNat (by omega)
    · next hnone =>
      obtain rfl := List.mem_singleton.mp h
      rw [Bool.eq_false_iff, ne_eq, isCapital_iff]
      have hletters := List.find?_eq_none.mp hnone ⟨⟨0x41, 0x5A, 1⟩, 32⟩ List.mem_cons_self
      simpa [Text.CodeRun.contains, Nat.mod_one] using hletters

theorem isCapital_of_mem_lowerChars {cs : List Char} (h : c ∈ Text.lowerChars cs) :
    isCapital c = false := by
  rcases Text.of_mem_lowerChars h with rfl | rfl | ⟨d, -, hc⟩
  · decide
  · decide
  · exact isCapital_of_mem_smallOf hc

/-! ## Names -/

variable {r : Renderer} {name text : String}

theorem isCapital_of_mem_quotedChar {d : Char} (h : isCapital d = false) (hc : c ∈ quotedChar d) :
    isCapital c = false := by
  rw [quotedChar] at hc
  split at hc
  · rcases List.mem_pair.mp hc with rfl | rfl
    · decide
    · exact h
  · split at hc
    · exact List.mem_singleton.mp hc ▸ h
    · obtain ⟨b, -, hb⟩ := List.mem_flatMap.mp hc
      have hdigit : ∀ n : Fin 16, isCapital (Nat.digitChar n) = false := by decide
      have hlt : b.toNat < 256 := b.toNat_lt
      simp only [hexByte, List.mem_cons, List.not_mem_nil, or_false] at hb
      rcases hb with rfl | rfl | rfl | rfl
      · decide
      · decide
      · exact hdigit ⟨b.toNat / 16, by omega⟩
      · exact hdigit ⟨b.toNat % 16, by omega⟩

theorem isCapital_of_mem_writeIdentifier (h : ∀ c ∈ name.toList, isCapital c = false)
    (hc : c ∈ (writeIdentifier name).toList) : isCapital c = false := by
  rcases writeIdentifier_cases name with ⟨hname, -⟩ | hname
  · exact h c (hname ▸ hc)
  · rw [hname, toList_quoteIdentifier, List.mem_cons, List.mem_cons, List.mem_append,
      List.mem_singleton] at hc
    rcases hc with rfl | rfl | hc | rfl
    · decide
    · decide
    · obtain ⟨d, hd, hcd⟩ := List.mem_flatMap.mp hc
      exact isCapital_of_mem_quotedChar (h d hd) hcd
    · decide

theorem isCapital_of_mem_numbered {n : ℕ} (h : ∀ c ∈ name.toList, isCapital c = false)
    (hc : c ∈ (numbered name n).toList) : isCapital c = false := by
  rw [toList_numbered, List.mem_append, List.mem_cons] at hc
  rcases hc with hc | rfl | hc
  · exact h c hc
  · decide
  · have hdigit := Nat.isDigit_of_mem_toDigits (by decide) (by decide) hc
    have hnine : '9'.toNat = 57 := rfl
    rw [Char.isDigit_iff_toNat] at hdigit
    rw [Bool.eq_false_iff, ne_eq, isCapital_iff]
    omega

namespace Renderer

/-- The long name of a value is in small letters. -/
theorem isCapital_of_mem_snake (h : r.convert name .snake = .ok text) (hc : c ∈ text.toList) :
    isCapital c = false := by
  rw [convert] at h
  dsimp only at h
  split at h
  · cases h
  · rw [← Except.ok.inj h, String.toList_ofList] at hc
    exact forall_mem_snakeText (by decide) (fun part _ c ↦ isCapital_of_mem_lowerChars) c hc

/-- The short name of a value is in small letters. -/
theorem isCapital_of_mem_enumValueText {enumName valueName : String} {isBitmask : Bool}
    (hc : c ∈ r.enumValueText enumName valueName isBitmask) : isCapital c = false := by
  have htext : ∀ words : List (List Char),
      ∀ c ∈ ((words.map Text.lowerChars).intersperse ['_']).flatten, isCapital c = false := by
    intro words c hc
    rcases of_mem_intersperse hc with rfl | ⟨word, hword, hc⟩
    · decide
    · obtain ⟨_, -, rfl⟩ := List.mem_map.mp hword
      exact isCapital_of_mem_lowerChars hc
  rw [enumValueText] at hc
  split at hc
  · exact htext _ c hc
  · split at hc
    · exact htext _ c hc
    · rw [List.mem_append, List.mem_cons] at hc
      rcases hc with hc | rfl | hc
      · exact htext _ c hc
      · decide
      · exact isCapital_of_mem_lowerChars hc

end Renderer

end XrBindings.Naming
