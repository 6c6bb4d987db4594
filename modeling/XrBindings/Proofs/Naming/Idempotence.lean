import XrBindings.Proofs.Naming.Styles
import XrBindings.Proofs.Naming.Tags

/-!
# Rendering again changes nothing

A rendered name is rendered again as it is, because the words and the tag that are put together are
found again in the text. The tag is found again in the camel styles and in capitals, where it is
written as it was. In small letters no tag is found, but the tag has become a word that stays.

In capitals there is one exception. A word that is no tag may look like one, or end like one, when
it is written in capitals. It would be taken for a tag and split off.
-/

namespace XrBindings.Naming

open XrBindings.Text XrBindings.Zig

namespace Renderer

variable {r : Renderer} {name text : String} {words : List (List Char)} {style : CaseStyle}

theorem capitals_tagText (htags : ∀ tag ∈ r.tags, IsTag tag) (name : String) :
    ∀ c ∈ r.tagText name, isCapital c = true := by
  rw [tagText]
  cases htag : r.authorTag? name with
  | none => simp
  | some tag => exact (isTag_of_mem htags (List.mem_of_find?_eq_some htag)).capitals

theorem isWord_tagText (htags : ∀ tag ∈ r.tags, IsTag tag) (name : String)
    (hne : r.tagText name ≠ []) : IsWord (r.tagText name) where
  ne_nil := hne
  underscore_notMem := fun hmem ↦ absurd (capitals_tagText htags name _ hmem) (by decide)
  printable := by
    intro c hc
    have hcapital := isCapital_iff.mp (capitals_tagText htags name c hc)
    rw [isPrintableAscii_iff]
    omega

theorem tagText_ne_nil (htags : ∀ tag ∈ r.tags, IsTag tag)
    (h : (r.authorTag? name).isSome = true) : r.tagText name ≠ [] := by
  obtain ⟨tag, htag⟩ := Option.isSome_iff_exists.mp h
  rw [tagText, htag, Option.getD_some]
  exact (isTag_of_mem htags (List.mem_of_find?_eq_some htag)).ne_nil

theorem upperChars_tagText (htags : ∀ tag ∈ r.tags, IsTag tag) (hne : r.tagText name ≠ []) :
    upperChars (r.tagText name) = r.tagText name := by
  rw [upperChars_eq_map (isWord_tagText htags name hne).printable]
  refine (List.map_congr_left fun c hc ↦ ?_).trans (List.map_id _)
  exact toUpper_of_isCapital (capitals_tagText htags name c hc)

/-! ## Texts that are put together from their own words -/

/-- The text is what its own words and its own tag are put together to. -/
def IsRendered (r : Renderer) (style : CaseStyle) (text : String) : Prop :=
  ∃ body, text.toList = body ++ r.tagText text ∧
    style.join (segment body) (r.tagText text) = text.toList

theorem IsRendered.of_tagText_eq_nil {cs : List Char} (htag : r.tagText (String.ofList cs) = [])
    (h : style.join (segment cs) [] = cs) : r.IsRendered style (String.ofList cs) := by
  rw [IsRendered, htag, String.toList_ofList]
  exact ⟨cs, (List.append_nil cs).symm, h⟩

theorem isRendered_snake (htags : ∀ tag ∈ r.tags, IsTag tag) (hwords : ∀ word ∈ words, IsWord word)
    (name : String) : r.IsRendered .snake
      (String.ofList (CaseStyle.snakeText lowerChars words (r.tagText name))) := by
  have hparts := forall_mem_parts hwords (isWord_tagText htags name)
  -- In small letters no tag is found, whatever the name ends in.
  have hcapital : ∀ c ∈ CaseStyle.snakeText lowerChars words (r.tagText name),
      isCapital c = false := by
    refine forall_mem_snakeText (by decide) fun part hpart c hc ↦ ?_
    rw [lowerChars_eq_map (hparts part hpart).printable, List.mem_map] at hc
    obtain ⟨c, -, rfl⟩ := hc
    exact isCapital_toLower c
  have hnone := tagText_eq_nil htags fun c hc ↦ hcapital c (List.mem_of_getLast? hc)
  refine .of_tagText_eq_nil hnone (snakeText_segment_snakeText fun part hpart ↦ ?_)
  exact ⟨(hparts part hpart).segment_lowerChars, (hparts part hpart).lowerChars_lowerChars⟩

theorem isRendered_screamingSnake_of_tag (htags : ∀ tag ∈ r.tags, IsTag tag)
    (hwords : ∀ word ∈ words, IsWord word) (hne : r.tagText name ≠ []) :
    r.IsRendered .screamingSnake
      (String.ofList (CaseStyle.snakeText upperChars words (r.tagText name))) := by
  have hsplit : CaseStyle.snakeText upperChars words (r.tagText name) =
      (words.map upperChars).flatMap (· ++ ['_']) ++ r.tagText name := by
    rw [snakeText_of_tag hne, upperChars_tagText htags hne]
  have hfront : ∀ c ∈ ((words.map upperChars).flatMap (· ++ ['_'])).getLast?,
      isCapital c = false := by
    intro c hc
    rw [eq_underscore_of_mem_getLast? hc]
    decide
  have hsame := tagText_append htags hfront name
  rw [← hsplit] at hsame
  rw [IsRendered, hsame, String.toList_ofList]
  refine ⟨_, hsplit, snakeText_segment_of_tag hne fun word hword ↦ ?_⟩
  exact ⟨(hwords word hword).segment_upperChars, (hwords word hword).upperChars_upperChars⟩

theorem isRendered_screamingSnake (hwords : ∀ word ∈ words, IsWord word)
    (htag : r.tagText (String.ofList (CaseStyle.snakeText upperChars words [])) = []) :
    r.IsRendered .screamingSnake (String.ofList (CaseStyle.snakeText upperChars words [])) := by
  refine .of_tagText_eq_nil htag (snakeText_segment_snakeText fun word hword ↦ ?_)
  exact ⟨(hwords word hword).segment_upperChars, (hwords word hword).upperChars_upperChars⟩

/-- In a camel style no capital stands before the tag. -/
theorem isRendered_camel (htags : ∀ tag ∈ r.tags, IsTag tag) (hwords : ∀ word ∈ words, IsLong word)
    (name : String) (lowerFirst : Bool) :
    r.IsRendered (if lowerFirst then .camel else .titleCamel)
      (String.ofList (CaseStyle.camelText lowerFirst words ++ r.tagText name)) := by
  have hlast := not_isCapital_getLast?_camelText hwords lowerFirst
  have hsame := camelText_segment_camelText hwords lowerFirst
  rw [IsRendered, tagText_append htags hlast, String.toList_ofList]
  refine ⟨_, rfl, ?_⟩
  cases lowerFirst with
  | false => exact congrArg (· ++ r.tagText name) hsame
  | true => exact congrArg (· ++ r.tagText name) hsame

/-- In capitals it takes a tag, or a text that does not end in one. -/
theorem isRendered_join (htags : ∀ tag ∈ r.tags, IsTag tag) (hwords : ∀ word ∈ words, IsLong word)
    (htext : text = String.ofList (style.join words (r.tagText name)))
    (htag : style = .screamingSnake → r.tagText name ≠ [] ∨ r.tagText text = []) :
    r.IsRendered style text := by
  have hparts : ∀ word ∈ words, IsWord word := fun word hword ↦ (hwords word hword).toIsWord
  cases style with
  | snake => exact htext ▸ isRendered_snake htags hparts name
  | screamingSnake =>
    by_cases hne : r.tagText name = []
    · have hnone := (htag rfl).resolve_left (not_not.mpr hne)
      rw [hne] at htext
      subst htext
      exact isRendered_screamingSnake hparts hnone
    · exact htext ▸ isRendered_screamingSnake_of_tag htags hparts hne
  | camel => exact htext ▸ isRendered_camel htags hwords name true
  | titleCamel => exact htext ▸ isRendered_camel htags hwords name false

theorem IsRendered.render_writeIdentifier (h : r.IsRendered style text)
    (hprintable : ∀ c ∈ text.toList, isPrintableAscii c = true)
    (hlength : text.length ≤ maxIdentifierLength) :
    r.render (writeIdentifier text) style = .ok (writeIdentifier text) := by
  obtain ⟨body, hbody, hjoin⟩ := h
  have hunwrap := unwrapIdentifier_writeIdentifier hprintable
  rw [render, convert_eq_ok hunwrap hlength hbody style, hjoin, String.ofList_toList]
  rfl

/-! ## Names -/

theorem isLong_of_mem_segment {body word : List Char}
    (hbody : ∀ c ∈ body, c.isAlphanum = true ∨ c = '_') (hword : word ∈ segment body)
    (hfirst : word.head?.any Char.isAlpha = true) (hcount : 2 ≤ word.countP Char.isAlpha) :
    IsLong word := by
  obtain ⟨first, hhead, halpha⟩ := (Option.any_eq_true ..).mp hfirst
  obtain ⟨rest, rfl⟩ := List.head?_eq_some_iff.mp hhead
  refine ⟨isWord_of_mem_segment hbody hword, first, rest, rfl, halpha, ?_⟩
  rw [List.countP_cons_of_pos halpha] at hcount
  rw [List.any_eq_true]
  exact List.countP_pos_iff.mp (by omega)

/-- **Rendering again changes nothing.** Let the tags be capitals, and let every word of a name of
ASCII letters, digits and underscores, its tag apart, begin with a letter and have another one. If
the name is not too long, neither before nor after, its identifier in a style, be it escaped or not,
is its own identifier in this style. In capitals this takes a name with a tag, or one that does not
end like a tag in capitals. -/
theorem render_render (htags : ∀ tag ∈ r.tags, IsTag tag) (name : String)
    (hname : ∀ c ∈ name.toList, c.isAlphanum = true ∨ c = '_')
    (hlength : name.length ≤ maxIdentifierLength)
    (hwords : ∀ word ∈ segmentWords (r.withoutAuthorTag name),
      word.toList.head?.any Char.isAlpha = true ∧ 2 ≤ word.toList.countP Char.isAlpha)
    (style : CaseStyle) :
    ∃ text, r.convert name style = .ok text ∧ (text.length ≤ maxIdentifierLength →
      (style = .screamingSnake → (r.authorTag? name).isSome = true ∨ r.authorTag? text = none) →
      ∃ identifier, r.render name style = .ok identifier ∧
        r.render identifier style = .ok identifier) := by
  have hunwrap : unwrapIdentifier name = name :=
    unwrapIdentifier_of_head? fun hhead ↦
      absurd (hname _ (List.mem_of_mem_head? hhead)) (by decide)
  obtain ⟨body, hbody⟩ := r.exists_body name
  have hlong : ∀ word ∈ segment body, IsLong word := by
    intro word hword
    have hspec := hwords (String.ofList word) <| List.mem_map_of_mem <| by
      rwa [segment_withoutAuthorTag hbody]
    rw [String.toList_ofList] at hspec
    exact isLong_of_mem_segment (fun c hc ↦ hname c (hbody ▸ List.mem_append_left _ hc)) hword
      hspec.1 hspec.2
  have hprintable := printable_join hlong (isWord_tagText htags name) style
  have hconvert := convert_eq_ok hunwrap hlength hbody style
  generalize htext : String.ofList (style.join (segment body) (r.tagText name)) = text at hconvert
  refine ⟨text, hconvert, fun hlength' htag ↦ ?_⟩
  have hrendered : r.IsRendered style text := by
    refine isRendered_join htags hlong htext.symm fun hstyle ↦ ?_
    refine (htag hstyle).imp (fun hsome ↦ ?_) fun hnone ↦ ?_
    · exact tagText_ne_nil htags hsome
    · rw [tagText, hnone]
      rfl
  refine ⟨writeIdentifier text, by rw [render, hconvert]; rfl, ?_⟩
  exact hrendered.render_writeIdentifier (by rwa [← htext, String.toList_ofList]) hlength'

/-- A keyword, which is escaped, and a name with a tag. -/
theorem render_render_opaque :
    (∃ identifier, Renderer.render ⟨["KHR"]⟩ "opaque" .snake = .ok identifier ∧
      Renderer.render ⟨["KHR"]⟩ identifier .snake = .ok identifier) ∧
    ∃ identifier,
      Renderer.render ⟨["KHR"]⟩ "XR_BINDING_D3D11_KHR" .screamingSnake = .ok identifier ∧
      Renderer.render ⟨["KHR"]⟩ identifier .screamingSnake = .ok identifier := by
  have htags : ∀ tag ∈ (⟨["KHR"]⟩ : Renderer).tags, IsTag tag := by
    rw [List.forall_mem_singleton]
    exact ⟨by decide, by simp [isCapital]⟩
  constructor
  · have hconvert : Renderer.convert ⟨["KHR"]⟩ "opaque" .snake = .ok "opaque" := by decide +kernel
    obtain ⟨text, htext, hrender⟩ :=
      render_render htags "opaque" (by simp) (by decide) (by decide +kernel) .snake
    obtain rfl := Except.ok.inj (htext.symm.trans hconvert)
    exact hrender (by decide) (by simp)
  · have hconvert : Renderer.convert ⟨["KHR"]⟩ "XR_BINDING_D3D11_KHR" .screamingSnake =
        .ok "XR_BINDING_D3D11_KHR" := by decide +kernel
    obtain ⟨text, htext, hrender⟩ := render_render htags "XR_BINDING_D3D11_KHR" (by simp)
      (by decide) (by decide +kernel) .screamingSnake
    obtain rfl := Except.ok.inj (htext.symm.trans hconvert)
    exact hrender (by decide) fun _ ↦ Or.inl (by decide)

/-- A word that ends like a tag in capitals is cut when it is rendered again. -/
example : Renderer.render ⟨["EXT"]⟩ "next" .screamingSnake = .ok "NEXT" ∧
    Renderer.render ⟨["EXT"]⟩ "NEXT" .screamingSnake = .ok "N_EXT" := by
  decide +kernel

end Renderer

end XrBindings.Naming
