import Mathlib.Data.List.Infix
import XrBindings.Naming.Renderer
import XrBindings.Proofs.Naming.Words

/-!
# Tags at the end of names

A name is a body and a tag, which is empty if the name ends in none. Which tag is found depends on
the order of the tags, as one may be the end of another. Behind another body the same tag is found,
unless this body ends in letters that complete an earlier tag. Tags are capitals, so that it is
enough that the body ends in anything but a capital.
-/

namespace XrBindings.Naming

open XrBindings.Text XrBindings.Zig

variable {r : Renderer} {name tag : String} {body : List Char}

theorem endsWith_iff {final : String} :
    endsWith name final = true ↔ final.toList <:+ name.toList := by
  rw [endsWith, List.isSuffixOf_iff_suffix]

/-- A tag is written in capitals. -/
structure IsTag (tag : String) : Prop where
  ne_nil : tag.toList ≠ []
  capitals : ∀ c ∈ tag.toList, isCapital c = true

/-- Where what precedes does not end in a capital, a tag at the end lies within what follows. -/
theorem IsTag.suffix_of_suffix_append {front rest : List Char} (h : IsTag tag)
    (hfront : ∀ c ∈ front.getLast?, isCapital c = false) (hsuffix : tag.toList <:+ front ++ rest) :
    tag.toList <:+ rest := by
  have hrest : rest <:+ front ++ rest := List.suffix_append front rest
  rcases List.suffix_or_suffix_of_suffix hsuffix hrest with hwithin | ⟨x, hx⟩
  · exact hwithin
  · -- Otherwise the tag begins within what precedes, and so does a capital of it.
    rw [← hx, List.suffix_append_self_iff] at hsuffix
    rcases List.eq_nil_or_concat x with rfl | ⟨y, c, rfl⟩
    · exact ⟨[], hx.symm⟩
    · rw [List.concat_eq_append] at hx hsuffix
      obtain ⟨z, hz⟩ := hsuffix
      have hlast : front.getLast? = some c := by
        rw [← hz, ← List.append_assoc, List.getLast?_concat]
      have hmem : c ∈ tag.toList := by simp [← hx]
      exact absurd (h.capitals c hmem) (by simp [hfront c hlast])

namespace Renderer

/-- The tag at the end of a name, or nothing. -/
def tagText (r : Renderer) (name : String) : List Char := ((r.authorTag? name).getD "").toList

theorem tagText_suffix (r : Renderer) (name : String) : r.tagText name <:+ name.toList := by
  rw [tagText]
  cases htag : r.authorTag? name with
  | none => exact List.nil_suffix
  | some tag => exact endsWith_iff.mp (List.find?_some htag)

theorem exists_body (r : Renderer) (name : String) :
    ∃ body, name.toList = body ++ r.tagText name := by
  obtain ⟨body, hbody⟩ := r.tagText_suffix name
  exact ⟨body, hbody.symm⟩

theorem take_eq_body (hbody : name.toList = body ++ r.tagText name) :
    name.toList.take (name.length - (r.tagText name).length) = body := by
  rw [← String.length_toList, hbody, List.length_append, Nat.add_sub_cancel, List.take_left]

theorem convert_eq_ok {raw : String} (hunwrap : unwrapIdentifier raw = name)
    (hlength : name.length ≤ maxIdentifierLength) (hbody : name.toList = body ++ r.tagText name)
    (style : CaseStyle) :
    r.convert raw style = .ok (String.ofList (style.join (segment body) (r.tagText name))) := by
  have htake := take_eq_body hbody
  rw [tagText] at htake ⊢
  rw [convert, hunwrap]
  dsimp only
  rw [if_neg (by omega), htake]

theorem segment_withoutAuthorTag (hbody : name.toList = body ++ r.tagText name) :
    segment (r.withoutAuthorTag name).toList = segment body := by
  have htake := take_eq_body hbody
  rw [tagText] at hbody htake
  rw [withoutAuthorTag]
  cases htag : r.authorTag? name with
  | none => rw [hbody, htag, Option.getD_none, String.toList_empty, List.append_nil]
  | some tag =>
    dsimp only
    rw [htag, Option.getD_some, String.length_toList] at htake
    rw [htake, String.toList_ofList, segment_dropEndWhile_underscore]

theorem isTag_of_mem (htags : ∀ tag ∈ r.tags, IsTag tag) (h : tag ∈ r.tags ++ [fallbackTag]) :
    IsTag tag := by
  rcases List.mem_append.mp h with h | h
  · exact htags tag h
  · rw [List.mem_singleton.mp h]
    exact ⟨by decide, by simp [fallbackTag, isCapital]⟩

/-- **Behind another body the same tag is found** if the body does not end in a capital. -/
theorem authorTag?_append {front : List Char} (htags : ∀ tag ∈ r.tags, IsTag tag)
    (hfront : ∀ c ∈ front.getLast?, isCapital c = false) (name : String) :
    r.authorTag? (String.ofList (front ++ r.tagText name)) = r.authorTag? name := by
  have hall : ∀ tag ∈ r.tags ++ [fallbackTag], IsTag tag := fun _ ↦ isTag_of_mem htags
  have hwithin : ∀ tag ∈ r.tags ++ [fallbackTag],
      endsWith (String.ofList (front ++ r.tagText name)) tag = true →
        tag.toList <:+ r.tagText name := by
    intro tag htag hends
    rw [endsWith_iff, String.toList_ofList] at hends
    exact (hall tag htag).suffix_of_suffix_append hfront hends
  cases hname : r.authorTag? name with
  | none =>
    rw [authorTag?, List.find?_eq_none]
    intro tag htag hends
    have hempty := hwithin tag htag hends
    rw [tagText, hname] at hempty
    exact (hall tag htag).ne_nil (List.suffix_nil.mp hempty)
  | some tag =>
    have htext : r.tagText name = tag.toList := by rw [tagText, hname, Option.getD_some]
    rw [authorTag?, List.find?_eq_some_iff_append] at hname ⊢
    obtain ⟨hends, before, after, hsplit, hbefore⟩ := hname
    refine ⟨?_, before, after, hsplit, fun earlier hmem ↦ ?_⟩
    · rw [endsWith_iff, String.toList_ofList, htext]
      exact List.suffix_append front tag.toList
    · -- An earlier tag at the end of the text would have been found at the end of the name.
      rw [Bool.not_eq_true', Bool.eq_false_iff]
      intro hearlier
      have hsuffix := hwithin earlier (by simp [hsplit, hmem]) hearlier
      rw [htext] at hsuffix
      have hfound : endsWith name earlier = true :=
        endsWith_iff.mpr (hsuffix.trans (endsWith_iff.mp hends))
      simpa [hfound] using hbefore earlier hmem

theorem tagText_append {front : List Char} (htags : ∀ tag ∈ r.tags, IsTag tag)
    (hfront : ∀ c ∈ front.getLast?, isCapital c = false) (name : String) :
    r.tagText (String.ofList (front ++ r.tagText name)) = r.tagText name := by
  rw [tagText, authorTag?_append htags hfront, tagText]

theorem tagText_eq_nil {front : List Char} (htags : ∀ tag ∈ r.tags, IsTag tag)
    (hfront : ∀ c ∈ front.getLast?, isCapital c = false) :
    r.tagText (String.ofList front) = [] := by
  have hempty : r.tagText "" = [] := List.suffix_nil.mp (r.tagText_suffix "")
  have htext := tagText_append htags hfront ""
  rwa [hempty, List.append_nil] at htext

end Renderer

end XrBindings.Naming
