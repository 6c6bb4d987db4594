import XrBindings.Proofs.Registry.Declarator
import XrBindings.Proofs.Zig.Identifier
import XrBindings.Registry.Load.Field

/-!
# Plain declarations

A declaration reaches the registry in two forms: as text, and as an element whose children mark the
type and the name. The text has no marks, so both are found again in it, by searching. What is found
is the right one as long as the type does not already occur in `const`: before the type stand at
most blanks and this word, and the name stands at the end of the text.
-/

namespace XrBindings.Declarator

open XrBindings.Text XrBindings.Xml XrBindings.Load

variable {c : Char} {u v w s : List Char}

/-! ## What stands around a type -/

/-- What may stand in front of a type: blanks, and perhaps `const` among them. The word needs a
blank behind it, or it would be the beginning of the type. -/
inductive InFront : List Char → Prop
  | blanks (u : List Char) (hu : ∀ c ∈ u, isBlank c = true) : InFront u
  | constant (u v : List Char) (hu : ∀ c ∈ u, isBlank c = true) (hv : ∀ c ∈ v, isBlank c = true)
      (hne : v ≠ []) : InFront (u ++ (constWord ++ v))

/-- What may stand between a type and a name: blanks, stars and words `const`, and no word at either
end. -/
inductive Between : List Char → Prop
  | last (c : Char) (hc : isBlank c = true ∨ c = '*') : Between [c]
  | cons {cs : List Char} (c : Char) (hc : isBlank c = true ∨ c = '*') (h : Between cs) :
      Between (c :: cs)
  | constant {cs : List Char} (c : Char) (hc : isBlank c = true ∨ c = '*') (h : Between cs) :
      Between (c :: (constWord ++ cs))

theorem isWordChar_eq_false_of_separator (hc : isBlank c = true ∨ c = '*') :
    isWordChar c = false :=
  hc.elim isWordChar_eq_false_of_isBlank fun h ↦ h ▸ isWordChar_star

theorem Between.isWordChar_head?_append (h : Between u) (v : List Char) :
    ∀ c ∈ (u ++ v).head?, isWordChar c = false := by
  cases h <;> (rintro d ⟨⟩; exact isWordChar_eq_false_of_separator ‹_›)

/-! ## Naming words -/

theorem namingWords_append (u : List Char) (h : ∀ c ∈ v.head?, isWordChar c = false) :
    namingWords (u ++ v) = namingWords u ++ namingWords v := by
  rw [namingWords, tokens_append u h, List.filterMap_append]
  rfl

theorem namingWords_blank_append (h : ∀ c ∈ u, isBlank c = true) :
    namingWords (u ++ v) = namingWords v := by
  rw [namingWords, tokens_blank_append h]
  rfl

theorem namingWords_cons (hc : isBlank c = true ∨ c = '*') :
    namingWords (c :: v) = namingWords v := by
  rcases hc with hc | rfl
  · exact namingWords_blank_append (u := [c]) (by simpa using hc)
  · rw [namingWords, tokens_star_cons]
    rfl

theorem namingWords_constWord : namingWords constWord = [] := by
  rw [namingWords, tokens_constWord]
  rfl

/-- A word that names something. -/
structure NamingWord (w : List Char) : Prop where
  plain : Zig.isPlainWord w = true
  ne_const : w ≠ constWord
  ne_struct : w ≠ structWord

namespace NamingWord

theorem ne_nil (h : NamingWord w) : w ≠ [] := by
  rintro rfl
  exact absurd h.plain (by decide)

theorem isWordChar_of_mem (h : NamingWord w) : ∀ c ∈ w, isWordChar c = true := by
  intro c hc
  obtain hc | rfl := Zig.isAlphanum_of_isPlainWord h.plain c hc
  · exact isWordChar_of_isAlphanum hc
  · decide

theorem isBlank_of_mem (h : NamingWord w) : ∀ c ∈ w, isBlank c = false := fun c hc ↦
  isBlank_eq_false_of_isWordChar (h.isWordChar_of_mem c hc)

theorem namingWords_eq (h : NamingWord w) : namingWords w = [w] := by
  rw [namingWords, tokens_of_word h.ne_nil h.isWordChar_of_mem]
  simp [h.ne_const, h.ne_struct]

end NamingWord

theorem InFront.namingWords_append (h : InFront u) (v : List Char) :
    namingWords (u ++ v) = namingWords v := by
  cases h with
  | blanks u hu => exact namingWords_blank_append hu
  | constant u w hu hw hne =>
    have hhead : ∀ c ∈ (w ++ v).head?, isWordChar c = false := by
      intro c hc
      rw [List.head?_append_of_ne_nil _ hne] at hc
      exact isWordChar_eq_false_of_isBlank (hw c (List.mem_of_mem_head? hc))
    rw [List.append_assoc, List.append_assoc, namingWords_blank_append hu,
      Declarator.namingWords_append _ hhead, namingWords_constWord, namingWords_blank_append hw]
    rfl

theorem Between.namingWords_append (h : Between u) (v : List Char) :
    namingWords (u ++ v) = namingWords v := by
  induction h with
  | last c hc => exact namingWords_cons hc
  | cons c hc h ih => rw [List.cons_append, namingWords_cons hc, ih]
  | constant c hc h ih =>
    rw [List.cons_append, namingWords_cons hc, List.append_assoc,
      Declarator.namingWords_append _ (h.isWordChar_head?_append v), namingWords_constWord, ih]
    rfl

/-! ## Cut points -/

/-- What stands in front of a type is, from wherever it is read, a piece of `const` up to the next
blank. -/
theorem InFront.exists_blank (h : InFront u) (hs : s ≠ []) (hsuffix : s <:+ u) :
    ∃ piece b rest, s = piece ++ b :: rest ∧ isBlank b = true ∧ piece <:+: constWord := by
  have hblanks : ∀ u : List Char, (∀ c ∈ u, isBlank c = true) → s <:+ u →
      ∃ piece b rest, s = piece ++ b :: rest ∧ isBlank b = true ∧ piece <:+: constWord := by
    intro u hu hsuffix
    obtain ⟨b, rest, rfl⟩ := List.exists_cons_of_ne_nil hs
    exact ⟨[], b, rest, rfl, hu b (hsuffix.subset List.mem_cons_self), List.nil_infix⟩
  cases h with
  | blanks u hu => exact hblanks u hu hsuffix
  | constant u v hu hv hne =>
    obtain ⟨b, v, rfl⟩ := List.exists_cons_of_ne_nil hne
    have hb := hv b List.mem_cons_self
    -- It is read from the blanks behind `const`, from the word, or from the blanks before it.
    obtain hsuffix | ⟨front, rfl⟩ :=
      List.suffix_or_suffix_of_suffix hsuffix (List.suffix_append u _)
    · obtain hsuffix | ⟨piece, rfl⟩ :=
        List.suffix_or_suffix_of_suffix hsuffix (List.suffix_append constWord _)
      · exact hblanks (b :: v) hv hsuffix
      · rw [List.suffix_append_self_iff] at hsuffix
        exact ⟨piece, b, v, rfl, hb, hsuffix.isInfix⟩
    · rw [List.suffix_append_self_iff] at hsuffix
      cases front with
      | nil => exact ⟨constWord, b, v, rfl, hb, List.infix_refl _⟩
      | cons d front =>
        exact ⟨[], d, _, rfl, hu d (hsuffix.subset List.mem_cons_self), List.nil_infix⟩

/-- A text without blanks that begins where another one does ends before the first blank of it. -/
theorem prefix_of_prefix_append_cons {b : Char} (hw : ∀ c ∈ w, isBlank c = false)
    (hb : isBlank b = true) (h : w <+: u ++ b :: v) : w <+: u := by
  obtain h | ⟨rest, rfl⟩ := List.prefix_or_prefix_of_prefix h (List.prefix_append u _)
  · exact h
  · rw [List.prefix_append_right_inj] at h
    cases rest with
    | nil => simp
    | cons d rest =>
      obtain rfl := (List.cons_prefix_cons.mp h).1
      exact absurd hb (by simp [hw])

theorem InFront.findChars?_append (h : InFront u) (hw : ∀ c ∈ w, isBlank c = false)
    (hconst : ¬w <:+: constWord) (v : List Char) :
    findChars? w (u ++ (w ++ v)) = some u.length := by
  have hne : w ≠ [] := by
    rintro rfl
    exact hconst List.nil_infix
  refine Text.findChars?_append hne fun s hs hsuffix hprefix ↦ ?_
  obtain ⟨piece, b, rest, rfl, hb, hpiece⟩ := h.exists_blank hs hsuffix
  rw [List.append_assoc, List.cons_append] at hprefix
  exact hconst ((prefix_of_prefix_append_cons hw hb hprefix).isInfix.trans hpiece)

theorem ofType_append (h : InFront u) (hw : ∀ c ∈ w, isBlank c = false)
    (hconst : ¬w <:+: constWord) (name : String) :
    ofType name w (u ++ (w ++ v)) =
      { name, typeName := String.ofList w
        isConst := (pointerLevels u v).1
        pointers := pointerInfos (String.ofList w) (pointerLevels u v).2 none none } := by
  have hafter : (u ++ (w ++ v)).drop (u.length + w.length) = v := by
    rw [← List.append_assoc, List.drop_left' List.length_append]
  rw [ofType, h.findChars?_append hw hconst, Option.getD_some, List.take_left, hafter]

/-! ## Both forms -/

variable {typeName name before between : String}

/-- The field that a declaration of a type and a name makes, given what stands around the type. -/
def plainField (typeName name before between : String) : Field :=
  let (isConst, constness) := pointerLevels before.toList between.toList
  { name, typeName, isConst, pointers := pointerInfos typeName constness none none }

/-- The declaration as an element. -/
def plainElement (tag typeName name before between tail : String) : Element :=
  ⟨tag, [], before, [⟨"type", [], typeName, [], between⟩, ⟨"name", [], name, [], ""⟩], tail⟩

theorem namingWords_declaration {w x between : List Char} (hbefore : InFront before.toList)
    (hbetween : Between between) (hw : NamingWord w) (hx : NamingWord x) :
    namingWords (before.toList ++ (w ++ (between ++ x))) = [w, x] := by
  rw [hbefore.namingWords_append, namingWords_append w (hbetween.isWordChar_head?_append x),
    hw.namingWords_eq, hbetween.namingWords_append, hx.namingWords_eq]
  rfl

theorem parse_plain (hbefore : InFront before.toList) (hbetween : Between between.toList)
    (htype : NamingWord typeName.toList) (hconst : ¬typeName.toList <:+: constWord)
    (hname : NamingWord name.toList) :
    parse (before ++ typeName ++ between ++ name) ""
      = .ok (plainField typeName name before between) := by
  have htext : (before ++ typeName ++ between ++ name).toList
      = before.toList ++ (typeName.toList ++ (between.toList ++ name.toList)) := by simp
  -- The name is cut off at the end, and then the type is looked for from the beginning.
  have hcut : before.toList ++ (typeName.toList ++ (between.toList ++ name.toList))
      = before.toList ++ (typeName.toList ++ between.toList) ++ name.toList := by simp
  have hwords := namingWords_declaration hbefore hbetween htype hname
  have hunnamed : "".isEmpty = true := rfl
  simp only [parse, htext, hwords, List.getLast?_singleton, hunnamed, if_true]
  rw [hcut, findLastChars?_append hname.ne_nil, Option.getD_some, List.take_left,
    ofType_append hbefore htype.isBlank_of_mem hconst, String.ofList_toList, String.ofList_toList]
  rfl

theorem childText?_eq {e child : Element} {tag : String} (hchild : e.child? tag = some child)
    (htext : NamingWord child.text.toList) : childText? e tag = some child.text := by
  have htrim : trim child.text = child.text := by
    rw [trim, trimChars_of_tight (tight_of_forall htext.isBlank_of_mem), String.ofList_toList]
  have hne : child.text.isEmpty = false := by
    rw [Bool.eq_false_iff, ne_eq, String.isEmpty_iff]
    intro hempty
    exact htext.ne_nil (by rw [hempty]; rfl)
  simp [childText?, hchild, htrim, hne]

theorem field_plainElement (tag tail before between : String) (htype : NamingWord typeName.toList)
    (hname : NamingWord name.toList) :
    Load.field (plainElement tag typeName name before between tail)
      = .ok (plainField typeName name before between) := by
  have htypeChild : (plainElement tag typeName name before between tail).child? "type"
      = some ⟨"type", [], typeName, [], between⟩ := rfl
  have hnameChild : (plainElement tag typeName name before between tail).child? "name"
      = some ⟨"name", [], name, [], ""⟩ := rfl
  have hsize : arraySize (plainElement tag typeName name before between tail) "" = .ok none := rfl
  rw [Load.field, htypeChild, childText?_eq htypeChild htype]
  dsimp only
  rw [hnameChild, childText?_eq hnameChild hname]
  dsimp only
  rw [hsize]
  rfl

/-- **Both forms of a declaration are read alike.** Neither the type nor the name is a word that
names nothing, and the type is not found inside `const`, where it would be taken for the first
occurrence. -/
theorem parse_eq_field (tag tail : String) (hbefore : InFront before.toList)
    (hbetween : Between between.toList) (htype : Zig.isPlainWord typeName.toList = true)
    (hstruct : typeName ≠ "struct") (hconst : ¬typeName.toList <:+: constWord)
    (hname : Zig.isPlainWord name.toList = true) (hnameConst : name ≠ "const")
    (hnameStruct : name ≠ "struct") :
    ∃ f, parse (before ++ typeName ++ between ++ name) "" = .ok f ∧
      Load.field (plainElement tag typeName name before between tail) = .ok f := by
  have htype : NamingWord typeName.toList :=
    ⟨htype, fun h ↦ hconst (h ▸ List.infix_refl _), fun h ↦ hstruct (String.toList_inj.mp h)⟩
  have hname : NamingWord name.toList :=
    ⟨hname, fun h ↦ hnameConst (String.toList_inj.mp h),
      fun h ↦ hnameStruct (String.toList_inj.mp h)⟩
  exact ⟨plainField typeName name before between, parse_plain hbefore hbetween htype hconst hname,
    field_plainElement tag tail before between htype hname⟩

/-- The name of the type occurs twice in the name of the field. -/
theorem parse_eq_field_nested :
    InFront " const ".toList ∧ Between "* const *".toList ∧
      Zig.isPlainWord "name".toList = true ∧ "name" ≠ "struct" ∧ ¬"name".toList <:+: constWord ∧
      Zig.isPlainWord "rename_name".toList = true ∧ "rename_name" ≠ "const" ∧
      "rename_name" ≠ "struct" ∧
      ∃ f, parse (" const " ++ "name" ++ "* const *" ++ "rename_name") "" = .ok f ∧
        Load.field (plainElement "member" "name" "rename_name" " const " "* const *" "")
          = .ok f := by
  have hblank : isBlank ' ' = true := by decide
  have hbefore : InFront " const ".toList :=
    .constant [' '] [' '] (by simp [hblank]) (by simp [hblank]) (by simp)
  have hbetween : Between "* const *".toList :=
    .cons '*' (Or.inr rfl) (.constant ' ' (Or.inl hblank)
      (.cons ' ' (Or.inl hblank) (.last '*' (Or.inr rfl))))
  have hconst : ¬"name".toList <:+: constWord := by decide
  exact ⟨hbefore, hbetween, by decide, by decide, hconst, by decide, by decide, by decide,
    parse_eq_field "member" "" hbefore hbetween (by decide) (by decide) hconst (by decide)
      (by decide) (by decide)⟩

end XrBindings.Declarator
