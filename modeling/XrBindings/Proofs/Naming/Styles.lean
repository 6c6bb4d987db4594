import XrBindings.Naming.CaseStyle
import XrBindings.Proofs.Naming.LetterCase
import XrBindings.Proofs.Naming.Words
import XrBindings.Proofs.Zig.Identifier

/-!
# Words in a style are found again

In the snake styles words are found again at the underscores, as each of them is in one case. In the
camel styles they are found again at the capitals. For this a word has to begin with a letter, which
may be a capital, and to have another one, which is a small letter then. A word in a style stays as
it is in this style, so that the words of a text are put together to the same text.
-/

namespace XrBindings.Naming

open XrBindings.Text XrBindings.Zig

/-- A word of printable characters. -/
structure IsWord (word : List Char) : Prop where
  ne_nil : word ≠ []
  underscore_notMem : '_' ∉ word
  printable : ∀ c ∈ word, isPrintableAscii c = true

section

variable {word tag : List Char} {words : List (List Char)} {convert : List Char → List Char}
  {lowerFirst : Bool}

/-! ## Words in a style -/

theorem lowerChars_eq_map (h : ∀ c ∈ word, isPrintableAscii c = true) :
    lowerChars word = word.map Char.toLower := by
  refine lowerChars_of_ascii fun c hc ↦ ?_
  have hle := (isPrintableAscii_iff.mp (h c hc)).2
  omega

theorem upperChars_eq_map (h : ∀ c ∈ word, isPrintableAscii c = true) :
    upperChars word = word.map Char.toUpper := by
  refine upperChars_of_ascii fun c hc ↦ ?_
  have hle := (isPrintableAscii_iff.mp (h c hc)).2
  omega

theorem isPrintableAscii_toLower {c : Char} (h : isPrintableAscii c = true) :
    isPrintableAscii c.toLower = true := by
  rcases toLower_eq_or_isSmall c with hsame | hsmall
  · rwa [hsame]
  · have hbounds := isSmall_iff.mp hsmall
    rw [isPrintableAscii_iff]
    omega

theorem isPrintableAscii_toUpper {c : Char} (h : isPrintableAscii c = true) :
    isPrintableAscii c.toUpper = true := by
  rcases toUpper_eq_or_isCapital c with hsame | hcapital
  · rwa [hsame]
  · have hbounds := isCapital_iff.mp hcapital
    rw [isPrintableAscii_iff]
    omega

namespace IsWord

theorem of_cased {word' : List Char} (h : IsWord word) (hne : word' ≠ [])
    (hcased : ∀ x ∈ word', ∃ c ∈ word, x = c.toLower ∨ x = c.toUpper) : IsWord word' where
  ne_nil := hne
  underscore_notMem := by
    intro hmem
    obtain ⟨c, hc, hlower | hupper⟩ := hcased _ hmem
    · exact h.underscore_notMem (toLower_eq_underscore.mp hlower.symm ▸ hc)
    · exact h.underscore_notMem (toUpper_eq_underscore.mp hupper.symm ▸ hc)
  printable := by
    intro x hx
    obtain ⟨c, hc, rfl | rfl⟩ := hcased x hx
    · exact isPrintableAscii_toLower (h.printable c hc)
    · exact isPrintableAscii_toUpper (h.printable c hc)

theorem lowerChars (h : IsWord word) : IsWord (lowerChars word) := by
  rw [lowerChars_eq_map h.printable]
  refine h.of_cased (by simpa using h.ne_nil) ?_
  rw [List.forall_mem_map]
  exact fun c hc ↦ ⟨c, hc, Or.inl rfl⟩

theorem upperChars (h : IsWord word) : IsWord (upperChars word) := by
  rw [upperChars_eq_map h.printable]
  refine h.of_cased (by simpa using h.ne_nil) ?_
  rw [List.forall_mem_map]
  exact fun c hc ↦ ⟨c, hc, Or.inr rfl⟩

theorem lowerChars_lowerChars (h : IsWord word) :
    Text.lowerChars (Text.lowerChars word) = Text.lowerChars word := by
  rw [lowerChars_eq_map h.lowerChars.printable, lowerChars_eq_map h.printable, List.map_map]
  exact List.map_congr_left fun c _ ↦ toLower_toLower c

theorem upperChars_upperChars (h : IsWord word) :
    Text.upperChars (Text.upperChars word) = Text.upperChars word := by
  rw [upperChars_eq_map h.upperChars.printable, upperChars_eq_map h.printable, List.map_map]
  exact List.map_congr_left fun c _ ↦ toUpper_toUpper c

theorem segment_lowerChars (h : IsWord word) :
    segment (Text.lowerChars word) = [Text.lowerChars word] := by
  refine segment_small h.lowerChars.ne_nil fun x hx ↦ ⟨?_, ?_⟩
  · rintro rfl
    exact h.lowerChars.underscore_notMem hx
  · rw [lowerChars_eq_map h.printable, List.mem_map] at hx
    obtain ⟨c, -, rfl⟩ := hx
    exact isCapital_toLower c

theorem segment_upperChars (h : IsWord word) :
    segment (Text.upperChars word) = [Text.upperChars word] := by
  refine segment_capitals h.upperChars.ne_nil fun x hx ↦ ⟨?_, ?_⟩
  · rintro rfl
    exact h.upperChars.underscore_notMem hx
  · rw [upperChars_eq_map h.printable, List.mem_map] at hx
    obtain ⟨c, -, rfl⟩ := hx
    exact isSmall_toUpper c

end IsWord

theorem isWord_of_mem_segment {cs : List Char} (hcs : ∀ c ∈ cs, c.isAlphanum = true ∨ c = '_')
    (h : word ∈ segment cs) : IsWord word := by
  obtain ⟨hne, hunderscore⟩ := of_mem_segment h
  refine ⟨hne, hunderscore, fun c hc ↦ ?_⟩
  exact isPrintableAscii_of_isAlphanum (hcs c (mem_of_mem_segment h hc))

theorem isDigit_of_isAlpha {c : Char} (h : c.isAlpha = true) : isDigit c = false := by
  have hlt : c.toNat < 128 := by
    rw [isAlpha_iff, isCapital_iff, isSmall_iff] at h
    omega
  have hall : ∀ c : Char, c.toNat < 128 → c.isAlpha = true → isDigit c = false :=
    ascii_induction (by decide +kernel)
  exact hall c hlt h

theorem camelWord_cons {first : Char} {rest : List Char} (hword : IsWord (first :: rest))
    (hfirst : first.isAlpha = true) (lowerFirst : Bool) :
    CaseStyle.camelWord lowerFirst (first :: rest) =
      (if lowerFirst then first.toLower else first.toUpper) :: rest.map Char.toLower := by
  have hprintable := List.forall_mem_cons.mp hword.printable
  have hone : ∀ c ∈ [first], isPrintableAscii c = true := by simpa using hprintable.1
  rw [CaseStyle.camelWord, List.takeWhile_cons_of_neg (by simp [isDigit_of_isAlpha hfirst]),
    List.dropWhile_cons_of_neg (by simp [isDigit_of_isAlpha hfirst])]
  dsimp only
  rw [lowerChars_eq_map hone, upperChars_eq_map hone, lowerChars_eq_map hprintable.2]
  cases lowerFirst <;> rfl

/-- A word that begins with a letter and has another one. -/
structure IsLong (word : List Char) : Prop extends IsWord word where
  letters : ∃ first rest, word = first :: rest ∧ first.isAlpha = true ∧
    rest.any Char.isAlpha = true

namespace IsLong

theorem exists_camelWord_eq (h : IsLong word) (lowerFirst : Bool) : ∃ first rest,
    word = first :: rest ∧ first.isAlpha = true ∧ rest.any Char.isAlpha = true ∧
      CaseStyle.camelWord lowerFirst word =
        (if lowerFirst then first.toLower else first.toUpper) :: rest.map Char.toLower := by
  obtain ⟨first, rest, rfl, hfirst, hrest⟩ := h.letters
  exact ⟨first, rest, rfl, hfirst, hrest, camelWord_cons h.toIsWord hfirst lowerFirst⟩

theorem camelWord (h : IsLong word) (lowerFirst : Bool) :
    IsLong (CaseStyle.camelWord lowerFirst word) := by
  obtain ⟨first, rest, rfl, hfirst, hrest, hcamel⟩ := h.exists_camelWord_eq lowerFirst
  rw [hcamel]
  refine ⟨h.toIsWord.of_cased (List.cons_ne_nil _ _) ?_, _, _, rfl, ?_, ?_⟩
  · refine List.forall_mem_cons.mpr ⟨⟨first, List.mem_cons_self, ?_⟩, ?_⟩
    · cases lowerFirst
      · exact Or.inr rfl
      · exact Or.inl rfl
    · rw [List.forall_mem_map]
      exact fun c hc ↦ ⟨c, List.mem_cons_of_mem _ hc, Or.inl rfl⟩
  · cases lowerFirst <;> simpa using hfirst
  · rw [List.any_map, ← hrest]
    exact congrArg rest.any (funext isAlpha_toLower)

theorem isHump_camelWord (h : IsLong word) (lowerFirst : Bool) :
    IsHump (CaseStyle.camelWord lowerFirst word) := by
  have hword := (h.camelWord lowerFirst).underscore_notMem
  obtain ⟨first, rest, rfl, hfirst, hrest, hcamel⟩ := h.exists_camelWord_eq lowerFirst
  rw [hcamel, List.mem_cons, not_or] at hword
  refine ⟨_, _, hcamel, Ne.symm hword.1, fun x hx ↦ ⟨?_, ?_⟩, ?_⟩
  · rintro rfl
    exact hword.2 hx
  · obtain ⟨c, -, rfl⟩ := List.mem_map.mp hx
    exact isCapital_toLower c
  · rw [List.any_map, ← hrest]
    exact congrArg rest.any (funext isSmall_toLower)

theorem camelWord_camelWord (h : IsLong word) (lowerFirst : Bool) :
    CaseStyle.camelWord lowerFirst (CaseStyle.camelWord lowerFirst word) =
      CaseStyle.camelWord lowerFirst word := by
  have hword := h.camelWord lowerFirst
  obtain ⟨first, rest, rfl, hfirst, -, hcamel⟩ := h.exists_camelWord_eq lowerFirst
  rw [hcamel] at hword ⊢
  rw [camelWord_cons hword.toIsWord (by cases lowerFirst <;> simpa using hfirst)]
  cases lowerFirst <;> simp

end IsLong

/-! ## Texts in a style -/

/-- The words of a text in a camel style. -/
def camelWords (lowerFirst : Bool) : List (List Char) → List (List Char)
  | [] => []
  | word :: words =>
    CaseStyle.camelWord lowerFirst word :: words.map (CaseStyle.camelWord false)

theorem camelText_false (words : List (List Char)) :
    CaseStyle.camelText false words = (words.map (CaseStyle.camelWord false)).flatten := by
  induction words with
  | nil => rfl
  | cons word words ih =>
    rw [CaseStyle.camelText, Bool.false_and, ih, List.map_cons, List.flatten_cons]

/-- Only the first word can be one that begins with a small letter. -/
theorem camelText_eq (h : ∀ word ∈ words, IsLong word) (lowerFirst : Bool) :
    CaseStyle.camelText lowerFirst words = (camelWords lowerFirst words).flatten := by
  rcases words with _ | ⟨word, words⟩
  · rfl
  · obtain ⟨first, rest, rfl, hfirst, -⟩ := (h word List.mem_cons_self).letters
    have hdigits : (first :: rest).all isDigit = false := by simp [isDigit_of_isAlpha hfirst]
    rw [CaseStyle.camelText, hdigits, Bool.and_false, camelText_false, camelWords,
      List.flatten_cons]

theorem forall_mem_camelWords {P : List Char → Prop} (h : ∀ word ∈ words, IsLong word)
    (hP : ∀ word lowerFirst, IsLong word → P (CaseStyle.camelWord lowerFirst word)) :
    ∀ word ∈ camelWords lowerFirst words, P word := by
  rcases words with _ | ⟨word, words⟩
  · exact List.forall_mem_nil _
  · rw [List.forall_mem_cons] at h
    rw [camelWords, List.forall_mem_cons, List.forall_mem_map]
    exact ⟨hP word lowerFirst h.1, fun w hw ↦ hP w false (h.2 w hw)⟩

theorem segment_camelText (h : ∀ word ∈ words, IsLong word) (lowerFirst : Bool) :
    segment (CaseStyle.camelText lowerFirst words) = camelWords lowerFirst words := by
  rw [camelText_eq h]
  refine segment_flatten_humps
    (forall_mem_camelWords h fun word lowerFirst hword ↦ hword.isHump_camelWord lowerFirst) ?_
  rcases words with _ | ⟨word, words⟩
  · exact List.forall_mem_nil _
  · rw [camelWords, List.tail_cons, List.forall_mem_map]
    intro w hw
    obtain ⟨first, rest, rfl, hfirst, -, hcamel⟩ :=
      (h w (List.mem_cons_of_mem _ hw)).exists_camelWord_eq false
    exact ⟨_, _, hcamel, (isCapital_toUpper first).trans hfirst⟩

theorem camelText_segment_camelText (h : ∀ word ∈ words, IsLong word) (lowerFirst : Bool) :
    CaseStyle.camelText lowerFirst (segment (CaseStyle.camelText lowerFirst words)) =
      CaseStyle.camelText lowerFirst words := by
  rw [segment_camelText h, camelText_eq h,
    camelText_eq (forall_mem_camelWords h fun word lowerFirst hword ↦ hword.camelWord lowerFirst)]
  rcases words with _ | ⟨word, words⟩
  · rfl
  · rw [List.forall_mem_cons] at h
    rw [camelWords, camelWords, h.1.camelWord_camelWord, List.map_map]
    congr 2
    exact List.map_congr_left fun w hw ↦ (h.2 w hw).camelWord_camelWord false

theorem IsHump.getLast?_eq {word : List Char} (h : IsHump word) :
    ∃ c, word.getLast? = some c ∧ isCapital c = false := by
  obtain ⟨first, rest, rfl, -, hrest, hsmall⟩ := h
  have hne : rest ≠ [] := by
    rintro rfl
    exact absurd hsmall (by simp)
  refine ⟨rest.getLast hne, ?_, (hrest _ (List.getLast_mem hne)).2⟩
  rw [List.getLast?_cons_of_ne_nil hne, List.getLast?_eq_some_getLast hne]

theorem not_isCapital_getLast?_camelText (h : ∀ word ∈ words, IsLong word) (lowerFirst : Bool) :
    ∀ c ∈ (CaseStyle.camelText lowerFirst words).getLast?, isCapital c = false := by
  rw [camelText_eq h]
  have hhumps : ∀ word ∈ camelWords lowerFirst words, IsHump word :=
    forall_mem_camelWords h fun word lowerFirst hword ↦ hword.isHump_camelWord lowerFirst
  rcases List.eq_nil_or_concat (camelWords lowerFirst words) with hnil | ⟨front, last, hconcat⟩
  · rw [hnil]
    simp
  · obtain ⟨c, hc, hcapital⟩ := (hhumps last (by simp [hconcat])).getLast?_eq
    rw [hconcat, List.concat_eq_append, List.flatten_append, List.flatten_singleton,
      List.getLast?_append, hc]
    simpa using hcapital

theorem map_convert_map (h : ∀ word ∈ words, convert (convert word) = convert word) :
    (words.map convert).map convert = words.map convert := by
  rw [List.map_map]
  exact List.map_congr_left h

/-- A text in a snake style is the same text in this style, its tag being a word now. -/
theorem snakeText_segment_snakeText
    (h : ∀ part ∈ if tag.isEmpty then words else words ++ [tag],
      segment (convert part) = [convert part] ∧ convert (convert part) = convert part) :
    CaseStyle.snakeText convert (segment (CaseStyle.snakeText convert words tag)) [] =
      CaseStyle.snakeText convert words tag := by
  rw [CaseStyle.snakeText, CaseStyle.snakeText, segment_intersperse, List.isEmpty_nil, if_pos rfl,
    map_convert_map fun part hpart ↦ (h part hpart).2]
  rw [List.forall_mem_map]
  exact fun part hpart ↦ (h part hpart).1

theorem snakeText_of_tag (htag : tag ≠ []) (words : List (List Char)) :
    CaseStyle.snakeText convert words tag =
      (words.map convert).flatMap (· ++ ['_']) ++ convert tag := by
  rw [CaseStyle.snakeText, if_neg (by simpa using htag), List.map_append, List.map_singleton,
    flatten_intersperse_concat]

theorem eq_underscore_of_mem_getLast? {c : Char}
    (h : c ∈ (words.flatMap (· ++ ['_'])).getLast?) : c = '_' := by
  rcases List.eq_nil_or_concat words with rfl | ⟨front, last, rfl⟩
  · simp at h
  · rw [List.concat_eq_append, List.flatMap_append, List.flatMap_singleton,
      ← List.append_assoc, List.getLast?_concat] at h
    exact (Option.some.inj h).symm

/-- A text in a snake style is the same text in this style, if its tag is found again. -/
theorem snakeText_segment_of_tag (htag : tag ≠ [])
    (h : ∀ word ∈ words,
      segment (convert word) = [convert word] ∧ convert (convert word) = convert word) :
    CaseStyle.snakeText convert (segment ((words.map convert).flatMap (· ++ ['_']))) tag =
      CaseStyle.snakeText convert words tag := by
  rw [segment_flatMap_underscore, snakeText_of_tag htag, snakeText_of_tag htag,
    map_convert_map fun word hword ↦ (h word hword).2]
  rw [List.forall_mem_map]
  exact fun word hword ↦ (h word hword).1

/-! ## Characters of a text -/

theorem of_mem_intersperse {c : Char} (h : c ∈ (words.intersperse ['_']).flatten) :
    c = '_' ∨ ∃ word ∈ words, c ∈ word := by
  induction words with
  | nil => simp at h
  | cons word words ih =>
    rcases words with _ | ⟨word', words⟩
    · exact Or.inr ⟨word, List.mem_cons_self, by simpa using h⟩
    · rw [List.intersperse_cons_cons, List.flatten_cons, List.flatten_cons, List.mem_append,
        List.mem_append] at h
      rcases h with h | h | h
      · exact Or.inr ⟨word, List.mem_cons_self, h⟩
      · exact Or.inl (List.mem_singleton.mp h)
      · rcases ih h with hc | ⟨w, hw, hc⟩
        · exact Or.inl hc
        · exact Or.inr ⟨w, List.mem_cons_of_mem _ hw, hc⟩

theorem forall_mem_snakeText {P : Char → Prop} (hunderscore : P '_')
    (h : ∀ part ∈ if tag.isEmpty then words else words ++ [tag], ∀ c ∈ convert part, P c) :
    ∀ c ∈ CaseStyle.snakeText convert words tag, P c := by
  intro c hc
  rcases of_mem_intersperse hc with rfl | ⟨text, htext, hc⟩
  · exact hunderscore
  · obtain ⟨part, hpart, rfl⟩ := List.mem_map.mp htext
    exact h part hpart c hc

theorem forall_mem_parts {P : List Char → Prop} (hwords : ∀ word ∈ words, P word)
    (htag : tag ≠ [] → P tag) : ∀ part ∈ if tag.isEmpty then words else words ++ [tag], P part := by
  split
  · exact hwords
  · next hne =>
    rw [List.forall_mem_append, List.forall_mem_singleton]
    exact ⟨hwords, htag (by simpa using hne)⟩

theorem printable_camelText (h : ∀ word ∈ words, IsLong word) (lowerFirst : Bool) :
    ∀ c ∈ CaseStyle.camelText lowerFirst words, isPrintableAscii c = true := by
  rw [camelText_eq h]
  intro c hc
  obtain ⟨word, hword, hc⟩ := List.mem_flatten.mp hc
  have hlong : IsLong word :=
    forall_mem_camelWords h (fun word lowerFirst hword ↦ hword.camelWord lowerFirst) word hword
  exact hlong.printable c hc

theorem printable_join (hwords : ∀ word ∈ words, IsLong word) (htag : tag ≠ [] → IsWord tag)
    (style : CaseStyle) : ∀ c ∈ style.join words tag, isPrintableAscii c = true := by
  have hparts := forall_mem_parts (fun word hword ↦ (hwords word hword).toIsWord) htag
  have hcamel : ∀ lowerFirst, ∀ c ∈ CaseStyle.camelText lowerFirst words ++ tag,
      isPrintableAscii c = true := by
    intro lowerFirst
    rw [List.forall_mem_append]
    refine ⟨printable_camelText hwords lowerFirst, fun c hc ↦ ?_⟩
    exact (htag (List.ne_nil_of_mem hc)).printable c hc
  cases style with
  | snake =>
    exact forall_mem_snakeText (by decide) fun part hpart ↦ (hparts part hpart).lowerChars.printable
  | screamingSnake =>
    exact forall_mem_snakeText (by decide) fun part hpart ↦ (hparts part hpart).upperChars.printable
  | camel => exact hcamel true
  | titleCamel => exact hcamel false

end

end XrBindings.Naming
