import XrBindings.Proofs.Text.Cut
import XrBindings.Registry.Declarator

/-!
# Stars and words of a declarator

A declarator can be cut wherever no word is interrupted: the tokens of both pieces are then the
tokens of the whole. So the tokens of stars with `const` between them are known whatever blanks
stand around them, and with the tokens the constness of each pointee, which is what was said before
its star: `const` behind a star is about the next one, and behind the last star about nothing.
-/

namespace XrBindings.Declarator

open XrBindings.Text

variable {c : Char} {u v w before after : List Char} {base : Bool}
  {qs : List Bool}

/-! ## Cutting a declarator -/

theorem tokensFrom_append (letters u : List Char) (h : ∀ c ∈ v.head?, isWordChar c = false) :
    tokensFrom letters (u ++ v) = tokensFrom letters u ++ tokens v := by
  induction u generalizing letters with
  | nil =>
    cases v with
    | nil => simp [tokensFrom, tokens, closeWord]
    | cons c v =>
      rw [List.nil_append, tokens, tokensFrom, tokensFrom, tokensFrom, h c rfl]
      by_cases hstar : c = '*' <;> simp [hstar, closeWord]
  | cons c u ih =>
    simp only [List.cons_append, tokensFrom]
    split_ifs <;> simp [ih]

theorem tokens_append (u : List Char) (h : ∀ c ∈ v.head?, isWordChar c = false) :
    tokens (u ++ v) = tokens u ++ tokens v :=
  tokensFrom_append [] u h

theorem isWordChar_star : isWordChar '*' = false := by decide +kernel

theorem tokens_star_cons (v : List Char) : tokens ('*' :: v) = .star :: tokens v := by
  rw [tokens, tokensFrom, isWordChar_star]
  rfl

theorem tokens_cons_of_blank (h : isBlank c = true) : tokens (c :: v) = tokens v := by
  have hstar : c ≠ '*' := by
    rintro rfl
    exact absurd h (by decide)
  rw [tokens, tokensFrom, isWordChar_eq_false_of_isBlank h]
  simp [hstar, closeWord, tokens]

theorem tokens_blank_append (h : ∀ c ∈ u, isBlank c = true) : tokens (u ++ v) = tokens v := by
  induction u with
  | nil => rfl
  | cons c u ih =>
    rw [List.cons_append, tokens_cons_of_blank (h c List.mem_cons_self),
      ih fun d hd ↦ h d (List.mem_cons_of_mem c hd)]

theorem tokens_of_blank (h : ∀ c ∈ w, isBlank c = true) : tokens w = [] := by
  simpa [tokens, tokensFrom, closeWord] using tokens_blank_append (v := []) h

theorem tokensFrom_of_word (letters : List Char) (h : ∀ c ∈ w, isWordChar c = true) :
    tokensFrom letters w = closeWord (w.reverse ++ letters) := by
  induction w generalizing letters with
  | nil => rfl
  | cons c w ih =>
    rw [tokensFrom, if_pos (h c List.mem_cons_self),
      ih (c :: letters) fun d hd ↦ h d (List.mem_cons_of_mem c hd)]
    simp

theorem tokens_of_word (hne : w ≠ []) (h : ∀ c ∈ w, isWordChar c = true) :
    tokens w = [.word w] := by
  simp [tokens, tokensFrom_of_word [] h, closeWord, hne]

theorem isWordChar_of_mem_constWord (h : c ∈ constWord) : isWordChar c = true := by
  refine isWordChar_of_isAlphanum (List.all_eq_true.mp ?_ c h)
  decide

theorem tokens_constWord : tokens constWord = [.word constWord] :=
  tokens_of_word (by decide) fun _ hc ↦ isWordChar_of_mem_constWord hc

/-! ## Stars -/

/-- A text of stars, with for each of them whether the word `const` follows it, and with any blanks
around stars and words. -/
inductive Stars : List Bool → List Char → Prop
  | nil (blanks : List Char) (hblanks : ∀ c ∈ blanks, isBlank c = true) : Stars [] blanks
  | plain {cs : List Char} {qs : List Bool} (blanks : List Char)
      (hblanks : ∀ c ∈ blanks, isBlank c = true) (h : Stars qs cs) :
      Stars (false :: qs) (blanks ++ '*' :: cs)
  | constant {cs : List Char} {qs : List Bool} (blanks between : List Char)
      (hblanks : ∀ c ∈ blanks, isBlank c = true) (hbetween : ∀ c ∈ between, isBlank c = true)
      (h : Stars qs cs) : Stars (true :: qs) (blanks ++ '*' :: (between ++ (constWord ++ cs)))

/-- The tokens of stars that are each followed by `const` or not. -/
def starTokens (qs : List Bool) : List Token :=
  qs.flatMap fun q ↦ .star :: if q then [.word constWord] else []

theorem isWordChar_head?_append (hu : ∀ c ∈ u, isBlank c = true)
    (hv : ∀ c ∈ v.head?, isWordChar c = false) : ∀ c ∈ (u ++ v).head?, isWordChar c = false := by
  intro c hc
  cases u with
  | nil => exact hv c hc
  | cons d u =>
    obtain rfl := Option.some.inj hc
    exact isWordChar_eq_false_of_isBlank (hu d List.mem_cons_self)

theorem isWordChar_head?_star (cs : List Char) :
    ∀ c ∈ ('*' :: cs).head?, isWordChar c = false := by
  rintro c ⟨⟩
  exact isWordChar_star

namespace Stars

theorem isWordChar_head? (h : Stars qs w) : ∀ c ∈ w.head?, isWordChar c = false := by
  cases h with
  | nil blanks hblanks =>
    exact fun c hc ↦ isWordChar_eq_false_of_isBlank (hblanks c (List.mem_of_mem_head? hc))
  | plain blanks hblanks h => exact isWordChar_head?_append hblanks (isWordChar_head?_star _)
  | constant blanks between hblanks hbetween h =>
    exact isWordChar_head?_append hblanks (isWordChar_head?_star _)

theorem tokens_eq (h : Stars qs w) : tokens w = starTokens qs := by
  induction h with
  | nil blanks hblanks => exact tokens_of_blank hblanks
  | plain blanks hblanks h ih =>
    rw [tokens_blank_append hblanks, tokens_star_cons, ih]
    rfl
  | constant blanks between hblanks hbetween h ih =>
    rw [tokens_blank_append hblanks, tokens_star_cons, tokens_blank_append hbetween,
      tokens_append _ h.isWordChar_head?, tokens_constWord, ih]
    rfl

end Stars

/-! ## Constness -/

theorem pointeesFrom_starTokens (constant : Bool) (found qs : List Bool) :
    pointeesFrom constant found (starTokens qs) = (constant :: qs).dropLast.reverse ++ found := by
  induction qs generalizing constant found with
  | nil => rfl
  | cons q qs ih =>
    have hnext : pointeesFrom constant found (starTokens (q :: qs))
        = pointeesFrom q (constant :: found) (starTokens qs) := by
      cases q <;> rfl
    rw [hnext, ih, List.dropLast_cons_cons, List.reverse_cons, List.append_assoc]
    rfl

theorem contains_constWord_iff :
    (before.splitOnP isBlank).contains constWord = true ↔ HoldsWord constWord before := by
  rw [List.contains_iff_mem, mem_splitOnP_isBlank_iff fun _ hc ↦
    isBlank_eq_false_of_isWordChar (isWordChar_of_mem_constWord hc)]

/-- The constness of the pointees, outermost first, is that of the stars in reverse without the last
of them, and then that of the base type. -/
theorem pointerLevels_of_stars (hbase : base = true ↔ HoldsWord constWord before)
    (hafter : Stars qs after) (hne : qs ≠ []) :
    pointerLevels before after = (base, qs.dropLast.reverse ++ [base]) := by
  have hcontains : (before.splitOnP isBlank).contains constWord = base :=
    Bool.eq_iff_iff.mpr (contains_constWord_iff.trans hbase.symm)
  obtain ⟨q, qs, rfl⟩ := List.exists_cons_of_ne_nil hne
  simp only [pointerLevels, hcontains, hafter.tokens_eq, pointeesFrom_starTokens]
  rw [List.dropLast_cons_cons, List.reverse_cons, List.append_nil]

end XrBindings.Declarator
