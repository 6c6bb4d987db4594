import Mathlib.Data.List.Basic
import Mathlib.Data.List.Nodup
import Mathlib.Data.List.Pairwise

/-!
# Lists whose members differ

Names are looked up and counted by their places in lists without repetition. Erasing repetitions
gives such a list, and in such a list the place of a member is determined by the member.
-/

namespace XrBindings

/-- Where some members of a list give something each, and the key of it is that of the member, the
keys stand in the order of the members. -/
theorem map_filterMap_sublist {α β κ : Type} {f : α → Option β} (key : α → κ) {key' : β → κ}
    (hkey : ∀ x y, f x = some y → key' y = key x) (l : List α) :
    ((l.filterMap f).map key').Sublist (l.map key) := by
  induction l with
  | nil => exact .refl _
  | cons x l ih =>
    rw [List.filterMap_cons]
    split
    · exact ih.cons _
    · next y hy =>
      rw [List.map_cons, List.map_cons, hkey x y hy]
      exact ih.cons_cons _

/-- What the members of a list without repetition give has no repetition exactly if different
members give different things. -/
theorem nodup_filterMap_iff {α β : Type} {f : α → Option β} {l : List α} (hl : l.Nodup) :
    (l.filterMap f).Nodup ↔
      ∀ a ∈ l, ∀ b ∈ l, a ≠ b → ∀ k, f a = some k → f b ≠ some k := by
  have : Std.Symm fun a b ↦ ∀ k, f a = some k → ∀ k', f b = some k' → k ≠ k' :=
    ⟨fun a b h k hk k' hk' ↦ (h k' hk' k hk).symm⟩
  rw [List.Nodup, List.pairwise_filterMap]
  constructor
  · intro h a ha b hb hne k hak hbk
    exact h.forall ha hb hne k hak k hbk rfl
  · intro h
    refine hl.imp_of_mem fun ha hb hne k hak k' hbk hk ↦ ?_
    exact h _ ha _ hb hne k hak (hk ▸ hbk)

variable {α : Type} [BEq α] [LawfulBEq α]

theorem nodup_eraseDups (l : List α) : l.eraseDups.Nodup := by
  induction hn : l.length using Nat.strongRecOn generalizing l with
  | ind n ih =>
    cases l with
    | nil => exact List.nodup_nil
    | cons a l =>
      have hlt : (l.filter fun b ↦ !b == a).length < n := by
        rw [← hn, List.length_cons]
        exact Nat.lt_succ_of_le (List.length_filter_le _ _)
      rw [List.eraseDups_cons, List.nodup_cons]
      refine ⟨fun ha ↦ ?_, ih _ hlt _ rfl⟩
      rw [List.mem_eraseDups, List.mem_filter] at ha
      simp at ha

theorem pairwise_idxOf_lt {l : List α} (hd : l.Nodup) :
    l.Pairwise fun a b ↦ l.idxOf a < l.idxOf b := by
  rw [List.pairwise_iff_getElem]
  intro i j hi hj hij
  rwa [hd.idxOf_getElem i hi, hd.idxOf_getElem j hj]

end XrBindings
