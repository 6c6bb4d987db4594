import XrBindings.Proofs.Naming.LetterCase
import XrBindings.Proofs.Naming.Tags
import XrBindings.Proofs.Naming.Words
import XrBindings.Proofs.Zig.Identifier

/-!
# Rendering loses no character

What rendering may change about a name are its underscores and the case of its letters. What is left
without them is the skeleton of the name. The skeleton of a text is that of its parts, one after
another, so that it is enough to look at the parts: the words are what the body holds besides
underscores, each word keeps its characters in every style, and the tag comes last again.
-/

namespace XrBindings.Naming

open XrBindings.Text XrBindings.Zig

/-- A text without its underscores, in small letters. -/
def bare (cs : List Char) : List Char := (cs.filter (· != '_')).map Char.toLower

/-- What a name is besides underscores and letter case. -/
def skeleton (name : String) : List Char := bare name.toList

/-- All characters are ASCII. -/
def IsAscii (cs : List Char) : Prop := ∀ c ∈ cs, c.toNat < 128

-- Only the characters of the text are looked at, not all characters there are.
instance (cs : List Char) : Decidable (IsAscii cs) :=
  decidable_of_iff (cs.all (·.toNat < 128) = true) (by simp [IsAscii])

section

variable {cs ds word tag : List Char} {words : List (List Char)}
  {convert : List Char → List Char} {lowerFirst : Bool}

/-! ## Parts of a text -/

@[simp] theorem bare_nil : bare [] = [] := rfl

@[simp] theorem bare_append (cs ds : List Char) : bare (cs ++ ds) = bare cs ++ bare ds := by
  rw [bare, List.filter_append, List.map_append, bare, bare]

@[simp] theorem bare_underscore (cs : List Char) : bare ('_' :: cs) = bare cs := rfl

theorem bare_map {f : Char → Char} (hunderscore : ∀ c, f c = '_' ↔ c = '_')
    (hlower : ∀ c, (f c).toLower = c.toLower) (cs : List Char) : bare (cs.map f) = bare cs := by
  have hfilter : ((· != '_') ∘ f) = (· != '_') := by
    funext c
    rw [Function.comp_apply, Bool.eq_iff_iff, bne_iff_ne, bne_iff_ne, ne_eq, ne_eq, hunderscore]
  rw [bare, List.filter_map, hfilter, List.map_map, bare]
  exact List.map_congr_left fun c _ ↦ hlower c

theorem IsAscii.append_iff : IsAscii (cs ++ ds) ↔ IsAscii cs ∧ IsAscii ds :=
  List.forall_mem_append

theorem bare_lowerChars (h : IsAscii cs) : bare (lowerChars cs) = bare cs := by
  rw [lowerChars_of_ascii h]
  exact bare_map (fun _ ↦ toLower_eq_underscore) toLower_toLower cs

theorem bare_upperChars (h : IsAscii cs) : bare (upperChars cs) = bare cs := by
  rw [upperChars_of_ascii h]
  exact bare_map (fun _ ↦ toUpper_eq_underscore) toLower_toUpper cs

theorem bare_flatten_segment (cs : List Char) : bare (segment cs).flatten = bare cs := by
  rw [bare, flatten_segment, List.filter_filter, bare]
  simp only [Bool.and_self]

theorem IsAscii.of_mem_segment (h : IsAscii cs) (hword : word ∈ segment cs) : IsAscii word :=
  fun c hc ↦ h c (mem_of_mem_segment hword hc)

/-! ## Styles -/

theorem bare_intersperse (words : List (List Char)) :
    bare (words.intersperse ['_']).flatten = bare words.flatten := by
  induction words with
  | nil => rfl
  | cons word words ih =>
    rcases words with _ | ⟨word', words⟩
    · rfl
    · rw [List.intersperse_cons_cons, List.flatten_cons, List.flatten_cons, List.singleton_append,
        bare_append, bare_underscore, ih, ← bare_append, ← List.flatten_cons]

theorem bare_flatten_map (h : ∀ word ∈ words, bare (convert word) = bare word) :
    bare (words.map convert).flatten = bare words.flatten := by
  induction words with
  | nil => rfl
  | cons word words ih =>
    rw [List.forall_mem_cons] at h
    rw [List.map_cons, List.flatten_cons, List.flatten_cons, bare_append, bare_append, h.1, ih h.2]

theorem bare_snakeText (hwords : ∀ word ∈ words, bare (convert word) = bare word)
    (htag : bare (convert tag) = bare tag) :
    bare (CaseStyle.snakeText convert words tag) = bare words.flatten ++ bare tag := by
  rw [CaseStyle.snakeText, bare_intersperse]
  split
  · next hempty =>
    rw [bare_flatten_map hwords, List.isEmpty_iff.mp hempty, bare_nil, List.append_nil]
  · have hparts : ∀ part ∈ words ++ [tag], bare (convert part) = bare part :=
      List.forall_mem_append.mpr ⟨hwords, by simpa using htag⟩
    rw [bare_flatten_map hparts, List.flatten_append, bare_append, List.flatten_singleton]

theorem bare_camelWord (h : IsAscii word) (lowerFirst : Bool) :
    bare (CaseStyle.camelWord lowerFirst word) = bare word := by
  have hsplit := word.takeWhile_append_dropWhile (p := isDigit)
  rw [← hsplit, IsAscii.append_iff] at h
  rw [CaseStyle.camelWord]
  split
  · next hrest =>
    rw [hrest, List.append_nil] at hsplit
    rw [hsplit]
  · next head rest hrest =>
    rw [hrest] at hsplit h
    obtain ⟨hhead, hrest⟩ : IsAscii [head] ∧ IsAscii rest := IsAscii.append_iff.mp h.2
    have hfirst : bare (if (word.takeWhile isDigit).isEmpty && lowerFirst then lowerChars [head]
        else upperChars [head]) = bare [head] := by
      split
      · exact bare_lowerChars hhead
      · exact bare_upperChars hhead
    rw [bare_append, bare_append, hfirst, bare_lowerChars hrest, List.append_assoc, ← bare_append,
      ← bare_append, List.singleton_append, hsplit]

theorem bare_camelText (h : ∀ word ∈ words, IsAscii word) (lowerFirst : Bool) :
    bare (CaseStyle.camelText lowerFirst words) = bare words.flatten := by
  induction words generalizing lowerFirst with
  | nil => rfl
  | cons word words ih =>
    rw [List.forall_mem_cons] at h
    rw [CaseStyle.camelText, bare_append, bare_camelWord h.1, ih h.2, List.flatten_cons,
      bare_append]

/-- In no style are characters lost. -/
theorem bare_join (style : CaseStyle) (hwords : ∀ word ∈ words, IsAscii word) (htag : IsAscii tag) :
    bare (style.join words tag) = bare words.flatten ++ bare tag := by
  cases style with
  | snake => exact bare_snakeText (fun w hw ↦ bare_lowerChars (hwords w hw)) (bare_lowerChars htag)
  | screamingSnake =>
    exact bare_snakeText (fun w hw ↦ bare_upperChars (hwords w hw)) (bare_upperChars htag)
  | camel => rw [CaseStyle.join, bare_append, bare_camelText hwords]
  | titleCamel => rw [CaseStyle.join, bare_append, bare_camelText hwords]

end

/-! ## Names -/

namespace Renderer

variable {name name' : String}

theorem exists_convert_eq_ok (r : Renderer) (style : CaseStyle)
    (hascii : IsAscii (unwrapIdentifier name).toList)
    (hlength : (unwrapIdentifier name).length ≤ maxIdentifierLength) :
    ∃ text, r.convert name style = .ok text ∧ skeleton text = skeleton (unwrapIdentifier name) := by
  obtain ⟨body, hbody⟩ := r.exists_body (unwrapIdentifier name)
  rw [hbody, IsAscii.append_iff] at hascii
  refine ⟨_, convert_eq_ok rfl hlength hbody style, ?_⟩
  rw [skeleton, String.toList_ofList, bare_join style (fun _ ↦ hascii.1.of_mem_segment) hascii.2,
    bare_flatten_segment, skeleton, hbody, bare_append]

/-- **Rendering loses no character.** Whatever the tags are, a name of ASCII characters that is not
too long can be rendered in every style, and only underscores and the case of letters change. So two
such names are written alike in a style only if they have the same characters otherwise. -/
theorem rendering_keeps_characters (r : Renderer) (style : CaseStyle) :
    (∀ name, IsAscii (unwrapIdentifier name).toList →
      (unwrapIdentifier name).length ≤ maxIdentifierLength →
      ∃ text, r.convert name style = .ok text ∧
        skeleton text = skeleton (unwrapIdentifier name)) ∧
    ∀ name name', IsAscii (unwrapIdentifier name).toList →
      (unwrapIdentifier name).length ≤ maxIdentifierLength →
      IsAscii (unwrapIdentifier name').toList →
      (unwrapIdentifier name').length ≤ maxIdentifierLength →
      r.render name style = r.render name' style →
      skeleton (unwrapIdentifier name) = skeleton (unwrapIdentifier name') := by
  refine ⟨fun name ↦ r.exists_convert_eq_ok style,
    fun name name' hascii hlength hascii' hlength' h ↦ ?_⟩
  obtain ⟨text, htext, hskeleton⟩ := r.exists_convert_eq_ok style hascii hlength
  obtain ⟨text', htext', hskeleton'⟩ := r.exists_convert_eq_ok style hascii' hlength'
  rw [render, render, htext, htext'] at h
  -- Escaping does not make different texts alike.
  have hsame : text = text' := writeIdentifier_injective (Except.ok.inj h)
  rw [← hskeleton, ← hskeleton', hsame]

/-- Two spellings of a name with a tag. -/
theorem rendering_keeps_characters_swapchain :
    (∃ text, Renderer.convert ⟨["KHR"]⟩ "swapchainImageKHR" .titleCamel = .ok text ∧
      skeleton text = "swapchainimagekhr".toList) ∧
    Renderer.render ⟨["KHR"]⟩ "swapchainImageKHR" .snake =
      Renderer.render ⟨["KHR"]⟩ "Swapchain_image_KHR" .snake ∧
    skeleton "swapchainImageKHR" = skeleton "Swapchain_image_KHR" := by
  have hrender : Renderer.render ⟨["KHR"]⟩ "swapchainImageKHR" .snake =
      Renderer.render ⟨["KHR"]⟩ "Swapchain_image_KHR" .snake := by decide +kernel
  obtain ⟨hconvert, -⟩ := rendering_keeps_characters ⟨["KHR"]⟩ .titleCamel
  obtain ⟨-, hsame⟩ := rendering_keeps_characters ⟨["KHR"]⟩ .snake
  refine ⟨?_, hrender, ?_⟩
  · obtain ⟨text, htext, hskeleton⟩ := hconvert "swapchainImageKHR" (by decide) (by decide)
    exact ⟨text, htext, hskeleton.trans (by decide)⟩
  · exact hsame "swapchainImageKHR" "Swapchain_image_KHR" (by decide) (by decide) (by decide)
      (by decide) hrender

end Renderer

end XrBindings.Naming
