import Mathlib.Algebra.BigOperators.Group.List.Basic
import XrBindings.Proofs.Number.IntegerText
import XrBindings.Proofs.Result
import XrBindings.Registry.Load.Field

/-!
# Extents of arrays

The extents of an array stand after the name of the field: each is a number or a constant in
brackets, where the constant is an element of its own, so that the text goes on after the element.
Here the text is put together again, and what it says is a grammar of its own, defined apart from
the reading. The reading sees less of the text: the part up to the first element after the name, and
one constant. It is shown what the numerals are that it finds there. Their numbers are multiplied
and written as a numeral again, so they and their product are subject to the limit of base ten.
-/

namespace XrBindings.Load

open XrBindings.Text XrBindings.Xml XrBindings.Number

/-! ## The text after the name -/

/-- A character or an element of the text after the name. -/
inductive Piece where
  | char (c : Char)
  | element (e : Element)

/-- The name of a field, and the elements after it. -/
def AfterName (e nameChild : Element) (later : List Element) : Prop :=
  ∃ before, e.children = before ++ nameChild :: later ∧ (∀ x ∈ before, x.tag ≠ "name") ∧
    nameChild.tag = "name"

/-- Elements with the text after each. -/
def laterPieces (later : List Element) : List Piece :=
  later.flatMap fun x ↦ .element x :: x.tail.toList.map .char

/-- All that stands after the name. -/
def piecesAfter (nameChild : Element) (later : List Element) : List Piece :=
  nameChild.tail.toList.map .char ++ laterPieces later

/-- One extent: a numeral, a numeral with blanks beside it, or a constant. -/
inductive Extent where
  | number (digits : List Char)
  | spaced (digits : List Char)
  | constant (name : String)

namespace Extent

/-- The extent, given the values of constants. -/
def value (constants : String → ℕ) : Extent → ℕ
  | .number digits | .spaced digits => numeralValue digits
  | .constant name => constants name

/-- A numeral that fills its brackets. -/
def numeral? : Extent → Option (List Char)
  | .number digits => some digits
  | _ => none

end Extent

/-- The extents that a text gives: what stands in its brackets, in order. -/
inductive Extents : List Piece → List Extent → Prop
  | nil : Extents [] []
  | char {c : Char} {rest : List Piece} {extents : List Extent} (hc : c ≠ '[')
      (h : Extents rest extents) : Extents (.char c :: rest) extents
  | element {x : Element} {rest : List Piece} {extents : List Extent}
      (h : Extents rest extents) : Extents (.element x :: rest) extents
  | number {digits : List Char} {rest : List Piece} {extents : List Extent}
      (hdigits : IsNumeral digits) (h : Extents rest extents) :
      Extents (('[' :: (digits ++ [']'])).map .char ++ rest)
        (.number digits :: extents)
  | spaced {left digits right : List Char} {rest : List Piece} {extents : List Extent}
      (hdigits : IsNumeral digits) (hblank : ∀ c ∈ left ++ right, isBlank c = true)
      (hspace : left ++ right ≠ []) (h : Extents rest extents) :
      Extents (('[' :: (left ++ digits ++ right ++ [']'])).map .char ++ rest)
        (.spaced digits :: extents)
  | constant {left right : List Char} {x : Element} {rest : List Piece} {extents : List Extent}
      (hx : x.tag = "enum") (hblank : ∀ c ∈ left ++ right, isBlank c = true)
      (h : Extents rest extents) :
      Extents (('[' :: left).map .char ++ (.element x :: ((right ++ [']']).map .char ++ rest)))
        (.constant (trim x.text) :: extents)

variable {e nameChild : Element} {later : List Element} {extents : List Extent}
  {pieces rest : List Piece} {u v cs digits : List Char}

theorem AfterName.child?_eq (h : AfterName e nameChild later) :
    e.child? "name" = some nameChild := by
  obtain ⟨before, hchildren, hbefore, hname⟩ := h
  rw [Element.child?, hchildren, List.find?_append,
    List.find?_eq_none.mpr fun x hx ↦ by simpa using hbefore x hx]
  simp [hname]

theorem Extents.eq_nil (h : Extents pieces extents) (hopen : .char '[' ∉ pieces) :
    extents = [] := by
  induction h with
  | nil => rfl
  | char hc h ih => exact ih fun hmem ↦ hopen (List.mem_cons_of_mem _ hmem)
  | element h ih => exact ih fun hmem ↦ hopen (List.mem_cons_of_mem _ hmem)
  | number hdigits h ih => exact absurd List.mem_cons_self hopen
  | spaced hdigits hblank hspace h ih => exact absurd List.mem_cons_self hopen
  | constant hx hblank h ih => exact absurd List.mem_cons_self hopen

/-! ## Numerals in brackets -/

theorem isDecimalDigit_eq_false_of_isBlank {c : Char} (h : isBlank c = true) :
    isDecimalDigit c = false := by
  -- No block of digits meets a range of blanks.
  have hapart : ∀ r ∈ blankRanges, ∀ z ∈ decimalZeros, r.2 < z ∨ z + 10 ≤ r.1 := by decide +kernel
  obtain ⟨r, hr, hblank⟩ := List.any_eq_true.mp h
  rw [isDecimalDigit, decimalValue?, Option.isSome_map, Option.isSome_eq_false_iff,
    Option.isNone_iff_eq_none, List.find?_eq_none]
  intro z hz hdigit
  have hrz := hapart r hr z hz
  simp only [Bool.and_eq_true, decide_eq_true_eq] at hblank hdigit
  omega

theorem bracketedNumerals_cons {c : Char} (hc : c ≠ '[') (cs : List Char) :
    bracketedNumerals (c :: cs) = bracketedNumerals cs := by
  rw [bracketedNumerals, if_neg (by simpa using hc)]

/-- What stands before the first bracket does not matter. -/
theorem bracketedNumerals_append (hu : '[' ∉ u) (v : List Char) :
    bracketedNumerals (u ++ v) = bracketedNumerals v := by
  induction u with
  | nil => rfl
  | cons c u ih =>
    rw [List.mem_cons, not_or] at hu
    rw [List.cons_append, bracketedNumerals_cons (Ne.symm hu.1), ih hu.2]

theorem span_eq_of_stop {p : Char → Bool} {c : Char} (hu : ∀ d ∈ u, p d = true)
    (hc : p c = false) : (u ++ c :: v).span p = (u, c :: v) := by
  rw [List.span_eq_takeWhile_dropWhile, List.takeWhile_append_of_pos hu,
    List.dropWhile_append_of_pos hu, List.takeWhile_cons_of_neg (by simp [hc]),
    List.dropWhile_cons_of_neg (by simp [hc]), List.append_nil]

theorem bracket_notMem_of_isNumeral (h : IsNumeral digits) : '[' ∉ digits := fun hmem ↦
  absurd (h.2 '[' hmem) (by decide)

theorem bracket_notMem_of_blank (hu : ∀ c ∈ u, isBlank c = true) : '[' ∉ u := fun hmem ↦
  absurd (hu '[' hmem) (by decide)

theorem bracketedNumerals_number (h : IsNumeral digits) (cs : List Char) :
    bracketedNumerals ('[' :: (digits ++ ']' :: cs))
      = digits :: bracketedNumerals cs := by
  have hrest : bracketedNumerals (digits ++ ']' :: cs) = bracketedNumerals cs := by
    rw [bracketedNumerals_append (bracket_notMem_of_isNumeral h),
      bracketedNumerals_cons (by decide)]
  rw [bracketedNumerals, if_pos (by rfl), span_eq_of_stop h.2 (by decide)]
  refine (if_neg (by simpa using h.1)).trans ?_
  rw [hrest]

/-- A bracket is passed over unless a numeral fills it. -/
theorem bracketedNumerals_bracket (digits : List Char) {c : Char}
    (hdigits : ∀ d ∈ digits, isDecimalDigit d = true) (hc : isDecimalDigit c = false)
    (hclose : digits = [] ∨ c ≠ ']') (cs : List Char) :
    bracketedNumerals ('[' :: (digits ++ c :: cs)) = bracketedNumerals (digits ++ c :: cs) := by
  rw [bracketedNumerals, if_pos (by rfl), span_eq_of_stop hdigits hc]
  split
  · next heq =>
    obtain ⟨rfl, hcs⟩ := Prod.mk.inj heq
    have hempty : digits = [] := hclose.resolve_right (by simp [(List.cons.inj hcs).1])
    rw [hempty]
    rfl
  · rfl

theorem bracketedNumerals_spaced {left right : List Char} (h : IsNumeral digits)
    (hblank : ∀ c ∈ left ++ right, isBlank c = true) (hspace : left ++ right ≠ [])
    (cs : List Char) :
    bracketedNumerals ('[' :: (left ++ digits ++ right ++ ']' :: cs)) = bracketedNumerals cs := by
  have hpass : bracketedNumerals ('[' :: (left ++ digits ++ right ++ ']' :: cs))
      = bracketedNumerals (left ++ digits ++ right ++ ']' :: cs) := by
    cases left with
    | cons b left =>
      have hb := isDecimalDigit_eq_false_of_isBlank (hblank b (by simp))
      simpa using bracketedNumerals_bracket [] (by simp) hb (Or.inl rfl)
        (left ++ digits ++ right ++ ']' :: cs)
    | nil =>
      obtain ⟨b, right, rfl⟩ := List.exists_cons_of_ne_nil hspace
      have hb := hblank b (by simp)
      have hclose : b ≠ ']' := by
        rintro rfl
        exact absurd hb (by decide)
      simpa using bracketedNumerals_bracket digits h.2 (isDecimalDigit_eq_false_of_isBlank hb)
        (Or.inr hclose) (right ++ ']' :: cs)
  have hopen : '[' ∉ left ++ digits ++ right := by
    have hblanks := bracket_notMem_of_blank hblank
    simp only [List.mem_append, not_or] at hblanks ⊢
    exact ⟨⟨hblanks.1, bracket_notMem_of_isNumeral h⟩, hblanks.2⟩
  rw [hpass, bracketedNumerals_append hopen, bracketedNumerals_cons (by decide)]

/-- A bracket with nothing but blanks after it gives no numeral. -/
theorem bracketedNumerals_unclosed (hu : ∀ c ∈ u, isBlank c = true) :
    bracketedNumerals ('[' :: u) = [] := by
  have hnone : bracketedNumerals u = [] := by
    simpa [bracketedNumerals] using bracketedNumerals_append (bracket_notMem_of_blank hu) []
  cases u with
  | nil => rfl
  | cons b u =>
    have hb := isDecimalDigit_eq_false_of_isBlank (hu b List.mem_cons_self)
    exact (bracketedNumerals_bracket [] (by simp) hb (Or.inl rfl) u).trans hnone

/-! ## The part up to the first element -/

/-- After the name no element is followed by a bracket that opens. -/
def OpensEarly (later : List Element) : Prop := ∀ x ∈ later, '[' ∉ x.tail.toList

theorem OpensEarly.notMem (h : OpensEarly later) : .char '[' ∉ laterPieces later := by
  intro hmem
  obtain ⟨x, hx, hmem⟩ := List.mem_flatMap.mp hmem
  obtain heq | hmem := List.mem_cons.mp hmem
  · exact absurd heq (by simp)
  · obtain ⟨c, hc, heq⟩ := List.mem_map.mp hmem
    exact h x hx (Piece.char.inj heq ▸ hc)

theorem exists_append_of_map_char_append
    (h : u.map .char ++ laterPieces later = v.map .char ++ rest) :
    ∃ w, u = v ++ w ∧ rest = w.map .char ++ laterPieces later := by
  induction v generalizing u with
  | nil => exact ⟨u, rfl, h.symm⟩
  | cons c v ih =>
    cases u with
    | nil =>
      cases later with
      | nil => exact absurd h (by simp [laterPieces])
      | cons x later => exact absurd h (by simp [laterPieces])
    | cons c' u =>
      obtain ⟨hc, h⟩ := List.cons.inj h
      obtain ⟨w, rfl, hrest⟩ := ih h
      exact ⟨w, by rw [Piece.char.inj hc]; rfl, hrest⟩

/-- **What is read as numerals.** Where all brackets open before the first element after the name,
the numerals found there are the extents that are numerals and fill their brackets. -/
theorem bracketedNumerals_eq (hopens : OpensEarly later)
    (h : Extents (u.map .char ++ laterPieces later) extents) :
    bracketedNumerals u = extents.filterMap Extent.numeral? := by
  generalize hpieces : u.map Piece.char ++ laterPieces later = pieces at h
  induction h generalizing u with
  | nil =>
    obtain rfl : u = [] := by simpa using (List.append_eq_nil_iff.mp hpieces).1
    rfl
  | @char c rest extents hc h ih =>
    obtain ⟨w, rfl, hrest⟩ := exists_append_of_map_char_append (v := [c]) hpieces
    rw [List.singleton_append, bracketedNumerals_cons hc, ih hrest.symm]
  | @element x rest extents h ih =>
    cases u with
    | cons c u => exact absurd hpieces (by simp)
    | nil =>
      have hlater : laterPieces later = .element x :: rest := hpieces
      have hopen := hopens.notMem
      rw [hlater, List.mem_cons, not_or] at hopen
      rw [h.eq_nil hopen.2]
      rfl
  | @number digits rest extents hdigits h ih =>
    obtain ⟨w, rfl, hrest⟩ := exists_append_of_map_char_append hpieces
    have hread := bracketedNumerals_number hdigits w
    simpa [ih hrest.symm, Extent.numeral?] using hread
  | @spaced left digits right rest extents hdigits hblank hspace h ih =>
    obtain ⟨w, rfl, hrest⟩ := exists_append_of_map_char_append hpieces
    have hread := bracketedNumerals_spaced hdigits hblank hspace w
    rw [List.filterMap_cons_none rfl]
    simpa [ih hrest.symm] using hread
  | @constant left right x rest extents hx hblank h ih =>
    obtain ⟨w, rfl, hrest⟩ := exists_append_of_map_char_append hpieces
    cases w with
    | cons c w => exact absurd hrest (by simp)
    | nil =>
      -- The text breaks off behind the bracket, and no other bracket opens.
      have hlater : laterPieces later = .element x :: ((right ++ [']']).map .char ++ rest) :=
        hrest.symm
      have hopen := hopens.notMem
      rw [hlater, List.mem_cons, List.mem_append, not_or, not_or] at hopen
      rw [h.eq_nil hopen.2.2, List.append_nil]
      exact bracketedNumerals_unclosed fun c hc ↦ hblank c (List.mem_append_left _ hc)

theorem bracket_mem_of_extents (hopens : OpensEarly later)
    (h : Extents (u.map .char ++ laterPieces later) extents) (hne : extents ≠ []) : '[' ∈ u := by
  by_contra hopen
  refine hne (h.eq_nil fun hmem ↦ ?_)
  obtain hmem | hmem := List.mem_append.mp hmem
  · obtain ⟨c, hc, heq⟩ := List.mem_map.mp hmem
    exact hopen (Piece.char.inj heq ▸ hc)
  · exact hopens.notMem hmem

/-! ## The extent of a field -/

/-- The constant that the reading takes for the extent: the first one that is given as an element,
wherever it stands. -/
def namedExtent? (e : Element) : Option String :=
  ((e.child? "enum").filter fun c ↦ !c.text.isEmpty).map fun c ↦ trim c.text

/-- The product of the numerals that fill their brackets. -/
def numeralProduct (extents : List Extent) : ℕ :=
  ((extents.filterMap Extent.numeral?).map numeralValue).prod

/-- The numbers can be converted: no numeral that is multiplied is too long, and neither is that of
the product. -/
structure Convertible (extents : List Extent) : Prop where
  numerals : ∀ digits ∈ extents.filterMap Extent.numeral?, digits.length ≤ maxDecimalDigits
  product : numeralProduct extents < 10 ^ maxDecimalDigits

instance (extents : List Extent) : Decidable (Convertible extents) :=
  decidable_of_iff
    ((∀ digits ∈ extents.filterMap Extent.numeral?, digits.length ≤ maxDecimalDigits) ∧
      numeralProduct extents < 10 ^ maxDecimalDigits)
    ⟨fun h ↦ ⟨h.1, h.2⟩, fun h ↦ ⟨h.numerals, h.product⟩⟩

theorem Extents.isNumeral (h : Extents pieces extents) :
    ∀ digits ∈ extents.filterMap Extent.numeral?, IsNumeral digits := by
  induction h with
  | nil => exact List.forall_mem_nil _
  | char hc h ih => exact ih
  | element h ih => exact ih
  | number hdigits h ih => exact List.forall_mem_cons.mpr ⟨hdigits, ih⟩
  | spaced hdigits hblank hspace h ih => exact ih
  | constant hx hblank h ih => exact ih

theorem numeral_eq (h : IsNumeral digits) : numeral digits =
    if digits.length ≤ maxDecimalDigits then .ok (numeralValue digits)
    else .error .tooManyDigits := by
  rw [numeral, readDecimal?_eq h]
  split_ifs <;> rfl

theorem mapM_numeral_eq {numerals : List (List Char)} (h : ∀ digits ∈ numerals, IsNumeral digits) :
    ((∀ digits ∈ numerals, digits.length ≤ maxDecimalDigits) ∧
      numerals.mapM numeral = .ok (numerals.map numeralValue)) ∨
    (∃ digits ∈ numerals, ¬digits.length ≤ maxDecimalDigits) ∧
      numerals.mapM numeral = .error .tooManyDigits := by
  induction numerals with
  | nil => exact Or.inl ⟨List.forall_mem_nil _, rfl⟩
  | cons digits numerals ih =>
    rw [List.forall_mem_cons] at h
    rw [List.mapM_cons, numeral_eq h.1]
    by_cases hdigits : digits.length ≤ maxDecimalDigits
    · rw [if_pos hdigits, Result.ok_bind]
      obtain ⟨hall, hread⟩ | ⟨⟨long, hlong, hlength⟩, hread⟩ := ih h.2
      · exact Or.inl ⟨List.forall_mem_cons.mpr ⟨hdigits, hall⟩, by rw [hread]; rfl⟩
      · exact Or.inr ⟨⟨long, List.mem_cons_of_mem _ hlong, hlength⟩, by rw [hread]; rfl⟩
    · rw [if_neg hdigits]
      exact Or.inr ⟨⟨digits, List.mem_cons_self, hdigits⟩, rfl⟩

/-- **The extent that is read.** It is the constant if there is one, and otherwise the product of
the numbers that fill their brackets. -/
theorem arraySize_eq (hopens : OpensEarly later)
    (h : Extents (piecesAfter nameChild later) extents) (hne : extents ≠ []) :
    arraySize e nameChild.tail = match namedExtent? e with
      | some name => .ok (some name)
      | none =>
        if extents.filterMap Extent.numeral? = [] then
          reject (.unreadableArraySize (trim nameChild.tail))
        else if Convertible extents then .ok (some (toString (numeralProduct extents)))
        else .error .tooManyDigits := by
  have hopen : nameChild.tail.toList.contains '[' = true :=
    List.contains_iff_mem.mpr (bracket_mem_of_extents hopens h hne)
  rw [arraySize, hopen, namedExtent?, bracketedNumerals_eq hopens h]
  cases (e.child? "enum").filter fun c ↦ !c.text.isEmpty with
  | some c => rfl
  | none =>
    obtain ⟨hall, hread⟩ | ⟨⟨long, hlong, hlength⟩, hread⟩ := mapM_numeral_eq h.isNumeral
    · have hproduct : (((extents.filterMap Extent.numeral?).map numeralValue).foldl (· * ·) 1)
          = numeralProduct extents := List.prod_eq_foldl.symm
      have hconvertible : Convertible extents ↔ numeralProduct extents < 10 ^ maxDecimalDigits :=
        ⟨Convertible.product, fun h ↦ ⟨hall, h⟩⟩
      generalize extents.filterMap Extent.numeral? = numerals at *
      cases numerals with
      | nil => rfl
      | cons digits numerals =>
        have hcons : digits :: numerals ≠ [] := List.cons_ne_nil _ _
        simp only [Option.map_none, hread, Result.ok_bind, hproduct, decimalText_eq,
          Int.natAbs_natCast, hconvertible, hcons, if_false, Bool.not_true, Bool.false_eq_true]
        split_ifs <;> rfl
    · have hnot : ¬Convertible extents := fun h ↦ hlength (h.numerals long hlong)
      simp only [hnot, if_false]
      generalize extents.filterMap Extent.numeral? = numerals at *
      cases numerals with
      | nil => exact absurd hlong List.not_mem_nil
      | cons digits numerals =>
        have hcons : digits :: numerals ≠ [] := List.cons_ne_nil _ _
        simp only [Option.map_none, hread, hcons, if_false]
        rfl

/-- A document is rejected because it cannot be read. -/
def Malformed {α : Type} (x : Result α) : Prop :=
  ∃ error, x = .error (.rejected error) ∧ error.code = .malformedDocument

/-- A field is malformed, or it can be read but for its extent. -/
theorem field_eq_malformed_or_map (hname : e.child? "name" = some nameChild) :
    Malformed (Load.field e) ∨ ∃ f : Field, Load.field e =
      (arraySize e nameChild.tail).map fun size ↦ { f with arraySize := size } := by
  cases htype : e.child? "type" with
  | none => exact Or.inl ⟨_, by rw [Load.field, htype]; rfl, rfl⟩
  | some typeChild =>
    cases htypeName : childText? e "type" with
    | none => exact Or.inl ⟨_, by rw [Load.field, htype, htypeName]; rfl, rfl⟩
    | some typeName =>
      cases hfieldName : childText? e "name" with
      | none =>
        exact Or.inl ⟨_, by rw [Load.field, htype, htypeName, hname, hfieldName]; rfl, rfl⟩
      | some name =>
        let levels := Declarator.pointerLevels e.text.toList typeChild.tail.toList
        let optional := e.get? "optional"
        refine Or.inr ⟨{
          name, typeName
          isConst := levels.1
          length := e.get? "len"
          pointers := Declarator.pointerInfos typeName levels.2 (e.get? "len") optional
          optional := (Declarator.listAttribute optional).head? == some "true"
          values := e.get? "values" }, ?_⟩
        rw [Load.field, htype, htypeName, hname, hfieldName]
        dsimp only
        cases arraySize e nameChild.tail <;> rfl

/-! ## Extents that are read as a whole -/

/-- The reading takes all extents into account: without a constant it passes over no number, or over
all of them, and with a constant there is nothing else. The name of a constant is no number. -/
inductive ReadWhole (e : Element) : List Extent → Prop
  | numbers {extents : List Extent} (hnamed : namedExtent? e = none)
      (h : ∀ x ∈ extents, ∃ digits, x = .number digits) : ReadWhole e extents
  | spaced {extents : List Extent} (hnamed : namedExtent? e = none)
      (h : ∀ x ∈ extents, ∃ digits, x = .spaced digits) : ReadWhole e extents
  | constant {name : String} (hnamed : namedExtent? e = some name)
      (hname : isDigits name = false) : ReadWhole e [.constant name]

/-- An extent stands for others: it is the numeral of their product, or the only one of them, which
is a constant. -/
inductive StandsForAll : String → List Extent → Prop
  | product {extents : List Extent} (n : ℕ)
      (h : ∀ constants, (extents.map (Extent.value constants)).prod = n) :
      StandsForAll (toString n) extents
  | constant {name : String} (hname : isDigits name = false) : StandsForAll name [.constant name]

theorem map_value_eq_map_numeralValue (h : ∀ x ∈ extents, ∃ digits, x = .number digits)
    (constants : String → ℕ) : extents.map (Extent.value constants)
      = (extents.filterMap Extent.numeral?).map numeralValue := by
  induction extents with
  | nil => rfl
  | cons x extents ih =>
    rw [List.forall_mem_cons] at h
    obtain ⟨⟨digits, rfl⟩, h⟩ := h
    rw [List.map_cons, ih h]
    rfl

/-- What is read of extents that are read as a whole stands for all of them, unless it is malformed
or too long. -/
theorem ReadWhole.arraySize_eq (hread : ReadWhole e extents) (hopens : OpensEarly later)
    (h : Extents (piecesAfter nameChild later) extents) (hne : extents ≠ []) :
    Malformed (arraySize e nameChild.tail) ∨
      (¬Convertible extents ∧ arraySize e nameChild.tail = .error .tooManyDigits) ∨
      (Convertible extents ∧
        ∃ size, arraySize e nameChild.tail = .ok (some size) ∧ StandsForAll size extents) := by
  rw [Load.arraySize_eq hopens h hne]
  cases hread with
  | numbers hnamed hnumbers =>
    have hmap := map_value_eq_map_numeralValue hnumbers
    have hdims : extents.filterMap Extent.numeral? ≠ [] := by
      intro hnil
      have hmap := hmap fun _ ↦ 0
      rw [hnil] at hmap
      exact hne (List.map_eq_nil_iff.mp hmap)
    rw [hnamed]
    dsimp only
    rw [if_neg hdims]
    split_ifs with hconvertible
    · exact Or.inr (Or.inr ⟨hconvertible, _, rfl, .product _ fun constants ↦ by
        rw [hmap, numeralProduct]⟩)
    · exact Or.inr (Or.inl ⟨hconvertible, rfl⟩)
  | spaced hnamed hspaced =>
    have hdims : extents.filterMap Extent.numeral? = [] := by
      rw [List.filterMap_eq_nil_iff]
      intro x hx
      obtain ⟨digits, rfl⟩ := hspaced x hx
      rfl
    rw [hnamed]
    dsimp only
    rw [if_pos hdims]
    exact Or.inl ⟨_, rfl, rfl⟩
  | @constant name hnamed hname =>
    rw [hnamed]
    have hconvertible : Convertible [.constant name] :=
      ⟨List.forall_mem_nil _, Nat.one_lt_pow (by decide) (by decide)⟩
    exact Or.inr (Or.inr ⟨hconvertible, _, rfl, .constant hname⟩)

end XrBindings.Load
