import Mathlib.Data.List.Induction
import Mathlib.Data.List.Basic
import Mathlib.Data.Nat.Digits.Defs
import XrBindings.Number.IntegerText
import XrBindings.Proofs.Result

/-!
# Integers as text

What the digits of a number are read as, and how far the conversions to and from base ten go. They
stop at the same number: digits are read and written up to `10 ^ maxDecimalDigits`. What counts when
a text is read is its length, so zeros in front take up the room of other digits.
-/

namespace XrBindings.Number

open XrBindings.Text

variable {c : Char} {digits : List Char}

theorem ofDigits_eq_reverse (base : ℕ) (digits : List ℕ) :
    ofDigits base digits = Nat.ofDigits base digits.reverse := by
  induction digits using List.reverseRecOn with
  | nil => rfl
  | append_singleton digits d ih =>
    rw [List.reverse_concat, Nat.ofDigits_cons, ← ih, ofDigits, List.foldl_concat, ← ofDigits,
      add_comm]

theorem readDigits?_map {α : Type} {value? : Char → Option ℕ} {char : α → Char} {value : α → ℕ}
    {xs : List α} (hne : xs ≠ []) (hchar : ∀ x ∈ xs, char x ≠ '_')
    (hvalue : ∀ x ∈ xs, value? (char x) = some (value x)) :
    readDigits? value? (xs.map char) = some (xs.map value) := by
  have hunderscore : '_' ∉ xs.map char := by
    rw [List.mem_map]
    rintro ⟨x, hx, hcx⟩
    exact hchar x hx hcx
  have hread : (xs.map char).mapM value? = some (xs.map value) := by
    clear hne hchar hunderscore
    induction xs with
    | nil => rfl
    | cons x xs ih =>
      rw [List.forall_mem_cons] at hvalue
      simp [hvalue.1, ih hvalue.2]
  rw [readDigits?, List.splitOn_eq_singleton hunderscore]
  simpa [hne] using hread

theorem decimalValue?_of_isDigit (h : c.isDigit = true) :
    decimalValue? c = some (c.toNat - '0'.toNat) := by
  rw [Char.isDigit_iff_toNat] at h
  have hzero : (0x30 ≤ c.toNat && c.toNat < 0x30 + 10) = true := by
    have hnine : '9'.toNat = 57 := rfl
    have hzero : '0'.toNat = 48 := rfl
    simp only [Bool.and_eq_true, decide_eq_true_eq]
    omega
  rw [decimalValue?, decimalZeros, List.find?_cons, hzero]
  rfl

/-! ## Numerals -/

/-- A decimal numeral. -/
def IsNumeral (digits : List Char) : Prop :=
  digits ≠ [] ∧ ∀ c ∈ digits, isDecimalDigit c = true

/-- The number that a numeral denotes. -/
def numeralValue (digits : List Char) : ℕ := ofDigits 10 (digits.filterMap decimalValue?)

theorem isNumeral_singleton (hc : isDecimalDigit c = true) : IsNumeral [c] :=
  ⟨List.cons_ne_nil _ _, by simpa using hc⟩

theorem isNumeral_toDigits (n : ℕ) : IsNumeral (Nat.toDigits 10 n) := by
  refine ⟨Nat.toDigits_ne_nil, fun c hc ↦ ?_⟩
  have hdigit := Nat.isDigit_of_mem_toDigits (by decide) (by decide) hc
  rw [isDecimalDigit, decimalValue?_of_isDigit hdigit, Option.isSome_some]

theorem filterMap_decimalValue? (h : ∀ c ∈ digits, isDecimalDigit c = true) :
    digits.filterMap decimalValue? = digits.map fun c ↦ (decimalValue? c).getD 0 := by
  rw [← List.filterMap_eq_map]
  refine List.filterMap_congr fun c hc ↦ ?_
  obtain ⟨n, hn⟩ := Option.isSome_iff_exists.mp (h c hc)
  rw [Function.comp_apply, hn, Option.getD_some]

/-- **A numeral is read** unless it is too long. -/
theorem readDecimal?_eq (h : IsNumeral digits) : readDecimal? digits =
    if digits.length ≤ maxDecimalDigits then some (numeralValue digits) else none := by
  have hunderscore : ∀ c ∈ digits, id c ≠ '_' := by
    rintro c hc rfl
    exact absurd (h.2 _ hc) (by decide)
  have hvalue : ∀ c ∈ digits, decimalValue? (id c) = some ((decimalValue? c).getD 0) := by
    intro c hc
    obtain ⟨n, hn⟩ := Option.isSome_iff_exists.mp (h.2 c hc)
    rw [id, hn, Option.getD_some]
  have hread := readDigits?_map h.1 hunderscore hvalue
  rw [List.map_id] at hread
  rw [readDecimal?, hread, Option.filter_some, List.length_map, numeralValue,
    filterMap_decimalValue? h.2]
  simp only [decide_eq_true_eq, Option.map_if]

theorem numeralValue_toDigits (n : ℕ) : numeralValue (Nat.toDigits 10 n) = n := by
  have hdigits : (Nat.toDigits 10 n).filterMap decimalValue? =
      (Nat.toDigits 10 n).map fun c ↦ c.toNat - '0'.toNat := by
    rw [← List.filterMap_eq_map]
    exact List.filterMap_congr fun c hc ↦
      decimalValue?_of_isDigit (Nat.isDigit_of_mem_toDigits (by decide) (by decide) hc)
  rw [numeralValue, hdigits, ofDigits, List.foldl_map, ← Nat.ofDigitChars,
    Nat.ofDigitChars_toDigits (by decide) (by decide)]

/-! ## The limit -/

theorem length_toDigits_le_max_iff (n : ℕ) :
    (Nat.toDigits 10 n).length ≤ maxDecimalDigits ↔ n < 10 ^ maxDecimalDigits :=
  Nat.length_toDigits_le_iff (by decide) (by decide)

theorem readDecimal?_toDigits (n : ℕ) :
    readDecimal? (Nat.toDigits 10 n) = if n < 10 ^ maxDecimalDigits then some n else none := by
  simp only [readDecimal?_eq (isNumeral_toDigits n), length_toDigits_le_max_iff,
    numeralValue_toDigits]

/-- An integer is written unless it is too long. -/
theorem decimalText_eq (n : ℤ) : decimalText n =
    if n.natAbs < 10 ^ maxDecimalDigits then .ok (toString n) else .error .tooManyDigits := by
  simp only [decimalText, length_toDigits_le_max_iff]

theorem decimalText_eq_ok_iff {n : ℤ} {text : String} :
    decimalText n = .ok text ↔ n.natAbs < 10 ^ maxDecimalDigits ∧ text = toString n := by
  rw [decimalText_eq]
  split
  · next h => simp [h, eq_comm]
  · next h => simp [h]

theorem rejectShowing_ne_ok {α : Type} {n : ℤ} {error : GenerationError} {a : α} :
    rejectShowing n error ≠ .ok a := by
  intro h
  obtain ⟨text, -, h⟩ := Result.bind_eq_ok_iff.mp h
  exact Result.reject_ne_ok h

end XrBindings.Number
