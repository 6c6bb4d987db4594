import Mathlib.Data.List.Find
import Mathlib.Tactic.FinCases
import XrBindings.Number.CInteger
import XrBindings.Proofs.Naming.LetterCase
import XrBindings.Proofs.Number.IntegerText
import XrBindings.Proofs.Result
import XrBindings.Proofs.Text.Cut

/-!
# Integer expressions can be read back

An integer expression is a literal with a suffix under signs and parentheses. Its texts are defined
here apart from the reading: the tokens in order, with blanks between them wherever one likes, but
not within a literal. Reading any text of an expression gives its value, up to two limits: a literal
in base ten may be too long, and there may be no room for the calls behind the signs.

The reading peels a text from both ends, so it relies on what stands there. An expression begins
with a parenthesis only if it also ends with the one that closes it; what begins with a sign is read
on behind the sign; and what is left has no blanks, so that a suffix can be told by the last
letters: no digit of base sixteen is one of them.
-/

namespace XrBindings.Number

open XrBindings.Text

/-! ## Expressions -/

/-- A digit of base sixteen, which may be a capital. -/
structure HexDigit where
  value : Fin 16
  capital : Bool

/-- The character of a digit. -/
def HexDigit.char (d : HexDigit) : Char :=
  if d.capital then (Nat.digitChar d.value).toUpper else Nat.digitChar d.value

/-- A number as it is written: in base ten without zeros in front, or in base sixteen. -/
inductive Numeral where
  | decimal (n : ℕ)
  | hexadecimal (capitalMark : Bool) (digits : List HexDigit) (nonempty : digits ≠ [])

namespace Numeral

def text : Numeral → List Char
  | .decimal n => Nat.toDigits 10 n
  | .hexadecimal capitalMark digits _ =>
    '0' :: (if capitalMark then 'X' else 'x') :: digits.map HexDigit.char

def value : Numeral → ℕ
  | .decimal n => n
  | .hexadecimal _ digits _ => Nat.ofDigits 16 (digits.map fun d ↦ (d.value : ℕ)).reverse

/-- A numeral in base ten has at most as many digits as are converted. -/
def IsShort : Numeral → Prop
  | .decimal n => n < 10 ^ maxDecimalDigits
  | .hexadecimal _ _ _ => True

instance : DecidablePred IsShort
  | .decimal n => inferInstanceAs (Decidable (n < 10 ^ maxDecimalDigits))
  | .hexadecimal _ _ _ => inferInstanceAs (Decidable True)

end Numeral

/-- There is no suffix, or one for a width, in letters of either case. -/
def IsWidthSuffix (cs : List Char) : Prop :=
  cs.map Char.toLower ∈ [[], ['u'], ['l'], ['u', 'l'], ['l', 'l'], ['u', 'l', 'l']]

instance (cs : List Char) : Decidable (IsWidthSuffix cs) := inferInstanceAs (Decidable (_ ∈ _))

/-- An integer expression. -/
inductive IntegerExpr where
  | literal (numeral : Numeral) (suffix : List Char) (isSuffix : IsWidthSuffix suffix)
  | negation (e : IntegerExpr)
  | complement (e : IntegerExpr)
  | parenthesized (e : IntegerExpr)

namespace IntegerExpr

def value : IntegerExpr → ℤ
  | .literal numeral _ _ => numeral.value
  | .negation e => -e.value
  | .complement e => -e.value - 1
  | .parenthesized e => e.value

/-- The number of signs in front of the literal. -/
def signs : IntegerExpr → ℕ
  | .literal _ _ _ => 0
  | .negation e | .complement e => e.signs + 1
  | .parenthesized e => e.signs

/-- The literal is short. -/
def IsShort : IntegerExpr → Prop
  | .literal numeral _ _ => numeral.IsShort
  | .negation e | .complement e | .parenthesized e => e.IsShort

instance decidableIsShort : DecidablePred IsShort
  | .literal numeral _ _ => inferInstanceAs (Decidable numeral.IsShort)
  | .negation e | .complement e | .parenthesized e => decidableIsShort e

/-- The texts of an expression, with any blanks between its tokens. -/
inductive WrittenAs : IntegerExpr → List Char → Prop
  | literal (numeral : Numeral) (suffix : List Char) (isSuffix : IsWidthSuffix suffix) :
      WrittenAs (.literal numeral suffix isSuffix) (numeral.text ++ suffix)
  | negation {e : IntegerExpr} {cs : List Char} (blanks : List Char)
      (hblanks : ∀ c ∈ blanks, isBlank c = true) (h : WrittenAs e cs) :
      WrittenAs (.negation e) ('-' :: (blanks ++ cs))
  | complement {e : IntegerExpr} {cs : List Char} (blanks : List Char)
      (hblanks : ∀ c ∈ blanks, isBlank c = true) (h : WrittenAs e cs) :
      WrittenAs (.complement e) ('~' :: (blanks ++ cs))
  | parenthesized {e : IntegerExpr} {cs : List Char} (left right : List Char)
      (hleft : ∀ c ∈ left, isBlank c = true) (hright : ∀ c ∈ right, isBlank c = true)
      (h : WrittenAs e cs) : WrittenAs (.parenthesized e) ('(' :: (left ++ cs ++ right ++ [')']))

end IntegerExpr

/-! ## Digits -/

variable {c d : Char} {cs u v suffix rest inner : List Char}

theorem HexDigit.char_spec (d : HexDigit) :
    hexValue? d.char = some (d.value : ℕ) ∧ d.char.isAlphanum = true ∧
      d.char.toLower ≠ 'u' ∧ d.char.toLower ≠ 'l' := by
  obtain ⟨value, capital⟩ := d
  have hall : ∀ (value : Fin 16) (capital : Bool),
      hexValue? (HexDigit.char ⟨value, capital⟩) = some (value : ℕ) ∧
        (HexDigit.char ⟨value, capital⟩).isAlphanum = true ∧
        (HexDigit.char ⟨value, capital⟩).toLower ≠ 'u' ∧
        (HexDigit.char ⟨value, capital⟩).toLower ≠ 'l' := by decide
  exact hall value capital

theorem readHex?_map_char {digits : List HexDigit} (h : digits ≠ []) :
    readHex? (digits.map HexDigit.char)
      = some (Nat.ofDigits 16 (digits.map fun d ↦ (d.value : ℕ)).reverse) := by
  have hchar : ∀ d : HexDigit, d.char ≠ '_' := fun d hd ↦
    absurd d.char_spec.2.1 (by rw [hd]; decide)
  have hread := readDigits?_map h (fun d _ ↦ hchar d) fun d _ ↦ d.char_spec.1
  have hmark : readHex? (digits.map HexDigit.char)
      = (readDigits? hexValue? (digits.map HexDigit.char)).map (ofDigits 16) := by
    cases digits with
    | nil => exact absurd rfl h
    | cons d digits =>
      rw [readHex?]
      intro rest hrest
      exact hchar d (List.cons.inj hrest).1
  rw [hmark, hread, Option.map_some, ofDigits_eq_reverse]

/-! ## Literals -/

namespace Numeral

theorem text_ne_nil (n : Numeral) : n.text ≠ [] := by
  cases n with
  | decimal n => exact Nat.toDigits_ne_nil
  | hexadecimal capitalMark digits h => simp [text]

theorem isAlphanum_of_mem_text {n : Numeral} (hc : c ∈ n.text) : c.isAlphanum = true := by
  cases n with
  | decimal n =>
    have hdigit := Nat.isDigit_of_mem_toDigits (by decide) (by decide) hc
    simp [Char.isAlphanum, hdigit]
  | hexadecimal capitalMark digits h =>
    rw [text, List.mem_cons, List.mem_cons, List.mem_map] at hc
    obtain rfl | rfl | ⟨d, -, rfl⟩ := hc
    · decide
    · cases capitalMark <;> decide
    · exact d.char_spec.2.1

/-- The last character of a numeral is no letter of a suffix. -/
theorem toLower_of_getLast? {n : Numeral} (h : c ∈ n.text.getLast?) :
    c.toLower ≠ 'u' ∧ c.toLower ≠ 'l' := by
  cases n with
  | decimal n =>
    have hdigits : ∀ d : Fin 10,
        (Nat.digitChar d).toLower ≠ 'u' ∧ (Nat.digitChar d).toLower ≠ 'l' := by decide
    have hlast : (Numeral.decimal n).text.getLast? = some (Nat.digitChar (n % 10)) := by
      rw [text, Nat.toDigits_eq_if (by decide)]
      split
      · next hn => rw [Nat.mod_eq_of_lt hn]; rfl
      · exact List.getLast?_concat
    obtain rfl : Nat.digitChar (n % 10) = c := by simpa [hlast] using h
    exact hdigits ⟨n % 10, Nat.mod_lt _ (by decide)⟩
  | hexadecimal capitalMark digits hne =>
    obtain ⟨digits, d, rfl⟩ := List.eq_nil_or_concat' digits |>.resolve_left hne
    have hlast : (Numeral.hexadecimal capitalMark (digits ++ [d]) hne).text.getLast?
        = some d.char := by
      simp [text, List.getLast?_cons]
    obtain rfl : d.char = c := by simpa [hlast] using h
    exact d.char_spec.2.2

end Numeral

theorem isBlank_of_isNumberBlank (h : isNumberBlank c = true) : isBlank c = true := by
  rw [isNumberBlank, Bool.or_eq_true, Bool.and_eq_true] at h
  obtain hascii | ⟨-, hblank⟩ := h
  · rw [isAsciiBlank, Bool.or_eq_true, beq_iff_eq, Bool.and_eq_true] at hascii
    obtain rfl | ⟨hfirst, hlast⟩ := hascii
    · decide
    · exact List.any_eq_true.mpr ⟨(0x9, 0xD), by decide, Bool.and_eq_true_iff.mpr ⟨hfirst, hlast⟩⟩
  · exact hblank

theorem trimNumber_of_forall (h : ∀ c ∈ cs, isBlank c = false) : trimNumber cs = cs := by
  have hkeep : ∀ u : List Char, (∀ c ∈ u, isBlank c = false) → u.dropWhile isNumberBlank = u := by
    intro u hu
    cases u with
    | nil => rfl
    | cons c u =>
      rw [List.dropWhile_cons_of_neg]
      intro hblank
      exact absurd (isBlank_of_isNumberBlank hblank) (by simp [hu c])
  rw [trimNumber, hkeep cs h, hkeep _ (by simpa using h), List.reverse_reverse]

theorem isBlank_eq_false_of_isAlphanum (h : c.isAlphanum = true) : isBlank c = false :=
  isBlank_eq_false_of_isWordChar (isWordChar_of_isAlphanum h)

/-- **A numeral is read back** unless it is too long. -/
theorem readInteger?_text (n : Numeral) :
    readInteger? n.text = if n.IsShort then some (n.value : ℤ) else none := by
  have htrim : trimNumber n.text = n.text := trimNumber_of_forall fun c hc ↦
    isBlank_eq_false_of_isAlphanum (Numeral.isAlphanum_of_mem_text hc)
  cases n with
  | decimal n =>
    have hdigit : ∀ c ∈ Nat.toDigits 10 n, c.isDigit = true := fun c hc ↦
      Nat.isDigit_of_mem_toDigits (by decide) (by decide) hc
    have hother : ∀ c ∈ ['x', 'X', '-', '+'], c ∉ Nat.toDigits 10 n := by
      intro c hc hmem
      have hd := hdigit c hmem
      fin_cases hc <;> exact absurd hd (by decide)
    rw [Numeral.text] at htrim
    rw [readInteger?, Numeral.text, htrim]
    split
    · next h => exact absurd (h ▸ by simp) (hother 'x' (by simp))
    · next h => exact absurd (h ▸ by simp) (hother 'X' (by simp))
    · rw [readSigned?, readDecimal?_toDigits, Option.map_if]
      · rfl
      · exact fun rest h ↦ absurd (h ▸ List.mem_cons_self) (hother '-' (by simp))
      · exact fun rest h ↦ absurd (h ▸ List.mem_cons_self) (hother '+' (by simp))
  | hexadecimal capitalMark digits h =>
    rw [readInteger?, htrim, Numeral.text, Numeral.value]
    cases capitalMark <;> simp [readHex?_map_char h, Numeral.IsShort]

/-! ## Suffixes -/

/-- A list without `d` ends a text with `d` exactly if it ends what stands behind `d`. -/
theorem suffix_append_cons_iff (hd : d ∉ v) : v <:+ u ++ d :: rest ↔ v <:+ rest := by
  constructor
  · intro h
    obtain h | h := List.suffix_or_suffix_of_suffix h (List.suffix_append u (d :: rest))
    · obtain rfl | h := List.suffix_cons_iff.mp h
      · exact absurd List.mem_cons_self hd
      · exact h
    · exact absurd (h.subset List.mem_cons_self) hd
  · exact fun h ↦ h.trans ((List.suffix_cons d rest).trans (List.suffix_append u _))

theorem IsWidthSuffix.isAlphanum (h : IsWidthSuffix suffix) (hc : c ∈ suffix) :
    c.isAlphanum = true := by
  have hletters : ∀ s ∈ [[], ['u'], ['l'], ['u', 'l'], ['l', 'l'], ['u', 'l', 'l']],
      s.all Char.isAlpha = true := by decide
  have hlower : c.toLower.isAlpha = true :=
    List.all_eq_true.mp (hletters _ h) _ (List.mem_map_of_mem hc)
  rw [Naming.isAlpha_toLower] at hlower
  rw [Char.isAlphanum, hlower, Bool.true_or]

/-- **The suffix is what is dropped.** -/
theorem dropWidthSuffix_append (n : Numeral) (hsuffix : IsWidthSuffix suffix) :
    dropWidthSuffix (n.text ++ suffix) = n.text := by
  obtain ⟨u, d, htext⟩ := (List.eq_nil_or_concat' n.text).resolve_left n.text_ne_nil
  have hd := Numeral.toLower_of_getLast? (n := n) (c := d) (by simp [htext])
  have hlower : (n.text ++ suffix).map Char.toLower
      = u.map Char.toLower ++ d.toLower :: suffix.map Char.toLower := by simp [htext]
  have hletters : ∀ s ∈ widthSuffixes, d.toLower ∉ s := by simp [widthSuffixes, hd]
  have hfind : (widthSuffixes.find? fun s ↦ s.isSuffixOf ((n.text ++ suffix).map Char.toLower))
      = widthSuffixes.find? fun s ↦ s.isSuffixOf (suffix.map Char.toLower) := by
    refine List.find?_congr fun s hs ↦ ?_
    rw [hlower, Bool.eq_iff_iff, List.isSuffixOf_iff_suffix, List.isSuffixOf_iff_suffix,
      suffix_append_cons_iff (hletters s hs)]
  -- The first suffix that fits is the whole suffix.
  have hfirst : ∀ s ∈ [[], ['u'], ['l'], ['u', 'l'], ['l', 'l'], ['u', 'l', 'l']],
      (widthSuffixes.find? fun t ↦ t.isSuffixOf s) = if s = [] then none else some s := by decide
  rw [dropWidthSuffix, hfind, hfirst _ hsuffix]
  by_cases hempty : suffix = []
  · simp [hempty]
  · simp [hempty]

/-! ## What stands at the ends -/

namespace IntegerExpr.WrittenAs

variable {e : IntegerExpr}

theorem ne_nil (h : WrittenAs e cs) : cs ≠ [] := by
  cases h with
  | literal n suffix isSuffix => simp [n.text_ne_nil]
  | _ => simp

theorem tight (h : WrittenAs e cs) : Tight cs := by
  have hsign : ∀ {sign : Char} {blanks cs : List Char}, isBlank sign = false → cs ≠ [] →
      Tight cs → Tight (sign :: (blanks ++ cs)) := by
    intro sign blanks cs hsign hne ht
    refine ⟨by simp [hsign], fun c hc ↦ ht.last c ?_⟩
    rwa [← List.cons_append, List.getLast?_append_of_ne_nil _ hne] at hc
  induction h with
  | literal n suffix isSuffix =>
    refine tight_of_forall fun c hc ↦ isBlank_eq_false_of_isAlphanum ?_
    exact (List.mem_append.mp hc).elim Numeral.isAlphanum_of_mem_text isSuffix.isAlphanum
  | negation blanks hblanks h ih => exact hsign (by decide) h.ne_nil ih
  | complement blanks hblanks h ih => exact hsign (by decide) h.ne_nil ih
  | parenthesized left right hleft hright h ih =>
    refine ⟨by simp [show isBlank '(' = false by decide], fun c hc ↦ ?_⟩
    rw [← List.cons_append, List.getLast?_concat, Option.mem_some_iff] at hc
    exact hc ▸ (by decide)

end IntegerExpr.WrittenAs

/-! ## Reading -/

theorem dropParens_of_head (h : trimChars cs = rest) (hopen : rest.head? ≠ some '(') :
    dropParens cs = rest := by
  rw [dropParens]
  subst h
  split
  · next h => simp [h] at hopen
  · rfl

theorem dropParens_parenthesized (h : trimChars cs = '(' :: (inner ++ [')'])) :
    dropParens cs = dropParens inner := by
  rw [dropParens, h]
  simp

theorem readCInteger_congr (room : ℕ) (h : dropParens u = dropParens v) :
    readCInteger room u = readCInteger room v := by
  rw [readCInteger.eq_def room u, readCInteger.eq_def room v, h]

/-- What is read behind a sign, by one call more. -/
def readBehindSign (operation : ℤ → ℤ) (rest : List Char) : ℕ → Result (Option ℤ)
  | 0 => .error .tooManySigns
  | room + 1 => (readCInteger room rest).map (·.map operation)

theorem readCInteger_minus (room : ℕ) (h : dropParens cs = '-' :: rest) :
    readCInteger room cs = readBehindSign (-·) rest room := by
  rw [readCInteger.eq_def, h]
  cases room <;> rfl

theorem readCInteger_tilde (room : ℕ) (h : dropParens cs = '~' :: rest) :
    readCInteger room cs = readBehindSign (-· - 1) rest room := by
  rw [readCInteger.eq_def, h]
  cases room <;> rfl

/-- A sign takes the room of one call and changes the value. -/
theorem readBehindSign_eq {operation : ℤ → ℤ} {signs : ℕ} {value? : Option ℤ}
    (h : ∀ room, readCInteger room rest =
      if signs ≤ room then .ok value? else .error .tooManySigns) (room : ℕ) :
    readBehindSign operation rest room =
      if signs + 1 ≤ room then .ok (value?.map operation) else .error .tooManySigns := by
  cases room with
  | zero => rfl
  | succ room =>
    rw [readBehindSign, h]
    simp only [Nat.add_le_add_iff_right]
    split <;> rfl

theorem readCInteger_literal (room : ℕ) (n : Numeral) (isSuffix : IsWidthSuffix suffix)
    (h : trimChars cs = n.text ++ suffix) :
    readCInteger room cs = .ok (if n.IsShort then some (n.value : ℤ) else none) := by
  have hhead : ∀ c, c.isAlphanum = false → (n.text ++ suffix).head? ≠ some c := by
    intro c hc hhead
    rw [List.head?_append_of_ne_nil _ n.text_ne_nil] at hhead
    rw [Numeral.isAlphanum_of_mem_text (List.mem_of_mem_head? hhead)] at hc
    exact absurd hc (by decide)
  rw [readCInteger.eq_def, dropParens_of_head h (hhead '(' (by decide))]
  split
  · next heq => exact absurd (congrArg List.head? heq) (hhead '~' (by decide))
  · next heq => exact absurd (congrArg List.head? heq) (hhead '-' (by decide))
  · rw [dropWidthSuffix_append n isSuffix, readInteger?_text]

/-- **Integer expressions are read back exactly,** with any blanks around them, if there is room for
their signs. Too long a literal is no integer, and with more signs there is no answer. -/
theorem readCInteger_of_writtenAs {e : IntegerExpr} (room : ℕ) (left right : List Char)
    (h : e.WrittenAs cs) (hleft : ∀ c ∈ left, isBlank c = true)
    (hright : ∀ c ∈ right, isBlank c = true) :
    readCInteger room (left ++ cs ++ right) =
      if e.signs ≤ room then .ok (if e.IsShort then some e.value else none)
      else .error .tooManySigns := by
  have htrim := trimChars_append hleft hright h.tight
  induction h generalizing room left right with
  | literal n suffix isSuffix =>
    rw [readCInteger_literal room n isSuffix htrim]
    exact (if_pos (Nat.zero_le room)).symm
  | negation blanks hblanks h ih =>
    -- What stands behind the sign is read with the blanks in front of it.
    have hrest := fun room ↦
      ih room blanks [] hblanks (by simp) (trimChars_append hblanks (by simp) h.tight)
    simp only [List.append_nil] at hrest
    rw [readCInteger_minus room (dropParens_of_head htrim (by simp)), readBehindSign_eq hrest,
      Option.map_if]
    rfl
  | complement blanks hblanks h ih =>
    have hrest := fun room ↦
      ih room blanks [] hblanks (by simp) (trimChars_append hblanks (by simp) h.tight)
    simp only [List.append_nil] at hrest
    rw [readCInteger_tilde room (dropParens_of_head htrim (by simp)), readBehindSign_eq hrest,
      Option.map_if]
    rfl
  | parenthesized l r hl hr h ih =>
    rw [readCInteger_congr room (dropParens_parenthesized htrim)]
    exact ih room l r hl hr (trimChars_append hl hr h.tight)

/-- The complement of a negative number in base sixteen. -/
def mixedExpr : IntegerExpr :=
  .complement (.parenthesized (.negation
    (.literal (.hexadecimal true [⟨1, false⟩, ⟨15, false⟩] (by decide)) ['u', 'L'] (by decide))))

/-- The suffix behind the digit `f` is dropped, and so are blanks wherever they stand. -/
theorem readCInteger_of_writtenAs_mixed :
    mixedExpr.WrittenAs ['~', '(', ' ', '-', '\t', '0', 'X', '1', 'f', 'u', 'L', '\n', ')'] ∧
      mixedExpr.signs ≤ signRoom ∧ mixedExpr.IsShort ∧
      readCInteger signRoom " ~( -\t0X1fuL\n) ".toList = .ok (some 30) := by
  have hblank : isBlank ' ' = true ∧ isBlank '\t' = true ∧ isBlank '\n' = true := by decide
  have hwritten : mixedExpr.WrittenAs
      ['~', '(', ' ', '-', '\t', '0', 'X', '1', 'f', 'u', 'L', '\n', ')'] :=
    .complement [] (by simp) (.parenthesized [' '] ['\n'] (by simp [hblank]) (by simp [hblank])
      (.negation ['\t'] (by simp [hblank]) (.literal _ _ _)))
  exact ⟨hwritten, by decide, trivial, readCInteger_of_writtenAs signRoom [' '] [' '] hwritten
    (by simp [hblank]) (by simp [hblank])⟩

/-- The shortest number that is too long. -/
def longNumeral : Numeral := .decimal (10 ^ maxDecimalDigits)

/-- One, with signs in front of it. -/
def signedOne : ℕ → IntegerExpr
  | 0 => .literal (.decimal 1) [] (by decide)
  | n + 1 => .negation (signedOne n)

theorem IntegerExpr.writtenAs_literal (n : Numeral) :
    (literal n [] (by decide)).WrittenAs n.text := by
  have hwritten := WrittenAs.literal n [] (by decide)
  rwa [List.append_nil] at hwritten

/-- The text of `signedOne`, without blanks. -/
def signedOneText (n : ℕ) : List Char := List.replicate n '-' ++ ['1']

theorem writtenAs_signedOne (n : ℕ) : (signedOne n).WrittenAs (signedOneText n) := by
  induction n with
  | zero => exact .literal (.decimal 1) [] (by decide)
  | succ n ih => exact .negation [] (by simp) ih

theorem readCInteger_signedOneText (room : ℕ) :
    readCInteger room (signedOneText (room + 1)) = .error .tooManySigns := by
  have hminus : ∀ n, dropParens (signedOneText (n + 1)) = '-' :: signedOneText n := fun n ↦
    dropParens_of_head (trimChars_of_tight (writtenAs_signedOne (n + 1)).tight)
      (by simp [signedOneText])
  induction room with
  | zero => exact readCInteger_minus 0 (hminus 0)
  | succ room ih => rw [readCInteger_minus _ (hminus _), readBehindSign, ih]; rfl

/-- A literal may be too long, and there may be too many signs. -/
theorem readCInteger_beyond_limits :
    ((IntegerExpr.literal longNumeral [] (by decide)).WrittenAs longNumeral.text ∧
      readCInteger signRoom longNumeral.text = .ok none) ∧
    (signedOne (signRoom + 1)).WrittenAs (signedOneText (signRoom + 1)) ∧
      readCInteger signRoom (signedOneText (signRoom + 1)) = .error .tooManySigns := by
  have hlong : ¬longNumeral.IsShort := lt_irrefl _
  have hwritten := IntegerExpr.writtenAs_literal longNumeral
  have htrim := trimChars_of_tight hwritten.tight
  rw [← List.append_nil longNumeral.text] at htrim
  refine ⟨⟨hwritten, ?_⟩, writtenAs_signedOne _, readCInteger_signedOneText _⟩
  rw [← List.append_nil longNumeral.text,
    readCInteger_literal signRoom longNumeral (by decide) htrim, if_neg hlong]

end XrBindings.Number
