import XrBindings.Proofs.Naming.Styles
import XrBindings.Proofs.Naming.Tags

/-!
# Names in small letters

A name in small letters, with underscores between its words, is as good as the name itself. Its
words are found again at the underscores, whatever showed them in the name, and no style looks at
the case in which it finds a letter. So the name and its form in small letters are the same name in
every style. This does not hold for tags, which are known by their capitals only, and are kept as
they are in the camel styles.
-/

namespace XrBindings.Naming

open XrBindings.Text XrBindings.Zig

section

variable {cs word : List Char} {words : List (List Char)}

/-! ## Styles do not look at letter case -/

/-- Only letters have a case. -/
@[simp] theorem isDigit_toLower (c : Char) : isDigit c.toLower = isDigit c := by
  rcases toLower_eq_or_isSmall c with hsame | hsmall
  · rw [hsame]
  · have halpha : c.isAlpha = true := (isSmall_toLower c).symm.trans hsmall
    rw [isDigit_of_isAlpha halpha, isDigit_of_isAlpha (by simpa using halpha)]

theorem toLower_of_isDigit {c : Char} (h : isDigit c = true) : c.toLower = c := by
  refine (toLower_eq_or_isSmall c).resolve_right fun hsmall ↦ ?_
  rw [isSmall_toLower] at hsmall
  rw [isDigit_of_isAlpha hsmall] at h
  exact absurd h Bool.false_ne_true

theorem printable_map_toLower (h : ∀ c ∈ cs, isPrintableAscii c = true) :
    ∀ c ∈ cs.map Char.toLower, isPrintableAscii c = true :=
  List.forall_mem_map.mpr fun c hc ↦ isPrintableAscii_toLower (h c hc)

theorem lowerChars_map_toLower (h : ∀ c ∈ cs, isPrintableAscii c = true) :
    lowerChars (cs.map Char.toLower) = lowerChars cs := by
  rw [lowerChars_eq_map (printable_map_toLower h), lowerChars_eq_map h, List.map_map]
  exact List.map_congr_left fun c _ ↦ toLower_toLower c

theorem upperChars_map_toLower (h : ∀ c ∈ cs, isPrintableAscii c = true) :
    upperChars (cs.map Char.toLower) = upperChars cs := by
  rw [upperChars_eq_map (printable_map_toLower h), upperChars_eq_map h, List.map_map]
  exact List.map_congr_left fun c _ ↦ toUpper_toLower c

theorem all_isDigit_lowerChars (h : IsWord word) :
    (lowerChars word).all isDigit = word.all isDigit := by
  rw [lowerChars_eq_map h.printable, List.all_map]
  exact congrArg word.all (funext isDigit_toLower)

theorem camelWord_lowerChars (h : IsWord word) (lowerFirst : Bool) :
    CaseStyle.camelWord lowerFirst (lowerChars word) = CaseStyle.camelWord lowerFirst word := by
  have hcomp : isDigit ∘ Char.toLower = isDigit := funext isDigit_toLower
  have hdigits : (word.takeWhile isDigit).map Char.toLower = word.takeWhile isDigit := by
    refine (List.map_congr_left fun c hc ↦ ?_).trans (List.map_id _)
    exact toLower_of_isDigit (List.mem_takeWhile_imp hc)
  rw [lowerChars_eq_map h.printable, CaseStyle.camelWord, CaseStyle.camelWord, List.takeWhile_map,
    List.dropWhile_map, hcomp, hdigits]
  cases hdrop : word.dropWhile isDigit with
  | nil => rfl
  | cons head rest =>
    obtain ⟨hhead, hrest⟩ : (∀ c ∈ [head], isPrintableAscii c = true) ∧
        ∀ c ∈ rest, isPrintableAscii c = true := by
      rw [← List.forall_mem_append, List.singleton_append, ← hdrop]
      exact fun c hc ↦ h.printable c ((List.dropWhile_suffix _).subset hc)
    have hfirst : [head.toLower] = [head].map Char.toLower := rfl
    rw [List.map_cons]
    dsimp only
    rw [hfirst, lowerChars_map_toLower hhead, upperChars_map_toLower hhead,
      lowerChars_map_toLower hrest]

theorem camelText_map_lowerChars (h : ∀ word ∈ words, IsWord word) (lowerFirst : Bool) :
    CaseStyle.camelText lowerFirst (words.map lowerChars) =
      CaseStyle.camelText lowerFirst words := by
  induction words generalizing lowerFirst with
  | nil => rfl
  | cons word words ih =>
    rw [List.forall_mem_cons] at h
    rw [List.map_cons, CaseStyle.camelText, CaseStyle.camelText, camelWord_lowerChars h.1,
      all_isDigit_lowerChars h.1, ih h.2]

theorem snakeText_nil (convert : List Char → List Char) (words : List (List Char)) :
    CaseStyle.snakeText convert words [] = ((words.map convert).intersperse ['_']).flatten := rfl

/-- **No style looks at the case of words.** -/
theorem join_map_lowerChars (h : ∀ word ∈ words, IsWord word) (style : CaseStyle) :
    style.join (words.map lowerChars) [] = style.join words [] := by
  cases style with
  | snake =>
    rw [CaseStyle.join, CaseStyle.join, snakeText_nil, snakeText_nil,
      map_convert_map fun word hword ↦ (h word hword).lowerChars_lowerChars]
  | screamingSnake =>
    have hsame : (words.map lowerChars).map upperChars = words.map upperChars := by
      rw [List.map_map]
      refine List.map_congr_left fun word hword ↦ ?_
      rw [Function.comp_apply, lowerChars_eq_map (h word hword).printable,
        upperChars_map_toLower (h word hword).printable]
    rw [CaseStyle.join, CaseStyle.join, snakeText_nil, snakeText_nil, hsame]
  | camel => rw [CaseStyle.join, CaseStyle.join, camelText_map_lowerChars h]
  | titleCamel => rw [CaseStyle.join, CaseStyle.join, camelText_map_lowerChars h]

/-! ## The form in small letters -/

theorem segment_snakeText (h : ∀ word ∈ words, IsWord word) :
    segment (CaseStyle.snakeText lowerChars words []) = words.map lowerChars := by
  rw [snakeText_nil, segment_intersperse]
  exact List.forall_mem_map.mpr fun word hword ↦ (h word hword).segment_lowerChars

/-- The form in small letters does not look like an escaped identifier. -/
theorem at_notMem_snakeText (hcs : ∀ c ∈ cs, c.isAlphanum = true ∨ c = '_') :
    '@' ∉ CaseStyle.snakeText lowerChars (segment cs) [] := by
  intro hmem
  refine forall_mem_snakeText (P := (· ≠ '@')) (by decide) ?_ '@' hmem rfl
  intro word hword c hc
  rw [List.isEmpty_nil, if_pos rfl] at hword
  rw [lowerChars_eq_map (isWord_of_mem_segment hcs hword).printable, List.mem_map] at hc
  obtain ⟨d, hd, rfl⟩ := hc
  rcases toLower_eq_or_isSmall d with hsame | hsmall
  · rw [hsame]
    rintro rfl
    exact absurd (hcs '@' (mem_of_mem_segment hword hd)) (by decide)
  · intro heq
    rw [heq] at hsmall
    exact absurd hsmall (by decide)

end

namespace Renderer

variable {r : Renderer} {name : String}

theorem tagText_eq_nil_of_eq_none (h : r.authorTag? name = none) : r.tagText name = [] := by
  rw [tagText, h]
  rfl

theorem convert_of_eq_none (hat : '@' ∉ name.toList) (hlength : name.length ≤ maxIdentifierLength)
    (htag : r.authorTag? name = none) (style : CaseStyle) :
    r.convert name style = .ok (String.ofList (style.join (segment name.toList) [])) := by
  have hunwrap : unwrapIdentifier name = name :=
    unwrapIdentifier_of_head? fun hhead ↦ hat (List.mem_of_mem_head? hhead)
  have htext := tagText_eq_nil_of_eq_none htag
  have hbody : name.toList = name.toList ++ r.tagText name := by rw [htext, List.append_nil]
  rw [convert_eq_ok hunwrap hlength hbody, htext]

/-- **Small letters and underscores are enough.** A name of ASCII letters, digits and underscores
that is not too long and has no tag can be written in small letters. If this is not too long and
ends in no tag either, it is written in every style as the name itself is. -/
theorem convert_snake_convert (r : Renderer) (name : String)
    (hname : ∀ c ∈ name.toList, c.isAlphanum = true ∨ c = '_')
    (hlength : name.length ≤ maxIdentifierLength) (htag : r.authorTag? name = none) :
    ∃ snake, r.convert name .snake = .ok snake ∧
      (r.authorTag? snake = none → snake.length ≤ maxIdentifierLength → ∀ style,
        ∃ text, r.convert name style = .ok text ∧ r.convert snake style = .ok text) := by
  have hat : '@' ∉ name.toList := fun hmem ↦ absurd (hname '@' hmem) (by decide)
  have hwords : ∀ word ∈ segment name.toList, IsWord word := fun word ↦ isWord_of_mem_segment hname
  refine ⟨_, convert_of_eq_none hat hlength htag .snake, fun htag' hlength' style ↦ ?_⟩
  refine ⟨_, convert_of_eq_none hat hlength htag style, ?_⟩
  have hat' := at_notMem_snakeText hname
  rw [CaseStyle.join] at htag' hlength' ⊢
  rw [convert_of_eq_none (by rwa [String.toList_ofList]) hlength' htag', String.toList_ofList,
    segment_snakeText hwords, join_map_lowerChars hwords]

/-- A name with a word that begins with a digit, and with more underscores than it needs. -/
theorem convert_snake_convert_view :
    Renderer.convert ⟨["KHR"]⟩ "OpenGLES2View__3dModel" .snake = .ok "open_gles2_view_3d_model" ∧
    ∃ text, Renderer.convert ⟨["KHR"]⟩ "OpenGLES2View__3dModel" .titleCamel = .ok text ∧
      Renderer.convert ⟨["KHR"]⟩ "open_gles2_view_3d_model" .titleCamel = .ok text := by
  have hconvert : Renderer.convert ⟨["KHR"]⟩ "OpenGLES2View__3dModel" .snake =
      .ok "open_gles2_view_3d_model" := by decide +kernel
  obtain ⟨snake, hsnake, hstyles⟩ := convert_snake_convert ⟨["KHR"]⟩ "OpenGLES2View__3dModel"
    (by simp) (by decide +kernel) (by decide +kernel)
  obtain rfl := Except.ok.inj (hsnake.symm.trans hconvert)
  exact ⟨hconvert, hstyles (by decide +kernel) (by decide +kernel) .titleCamel⟩

end Renderer

end XrBindings.Naming
