import Mathlib.Algebra.Group.Nat.Defs
import Mathlib.Data.List.Induction
import Mathlib.Data.List.Nodup
import Mathlib.Data.List.Perm.Subperm
import XrBindings.Naming.Unique

/-!
# Distinct names

A name that is made unique is not in use. The numbers are tried last, and as they give more names
than there are in use, one of these names is new.

The values of an enum get their names in turn, so that each name depends on all names before it. It
depends on nothing else: neither on what the values stand for nor on the order in which the names
are kept.
-/

namespace XrBindings.Naming

variable {short long name : String} {used used' : List String}
  {candidates : List (String × String)}

theorem numbered_injective (name : String) : Function.Injective (numbered name) := by
  intro m n h
  have hdigits : Nat.toDigits 10 m = Nat.toDigits 10 n := by
    rw [← Nat.toList_repr, ← Nat.toList_repr]
    exact congrArg String.toList ((String.append_right_inj (name ++ "_")).mp h)
  have hvalue := congrArg (Nat.ofDigitChars 10 · 0) hdigits
  simpa using hvalue

/-- Among as many numbers as there are names in use, and one more, one gives a new name. -/
theorem exists_numbered_notMem (name : String) (used : List String) :
    ∃ n ∈ (List.range (used.length + 1)).map (· + 2), numbered name n ∉ used := by
  by_contra! hall
  set numbers := (List.range (used.length + 1)).map (· + 2) with hnumbers
  have hnodup : (numbers.map (numbered name)).Nodup :=
    List.Nodup.map (numbered_injective name)
      (List.Nodup.map (add_left_injective 2) List.nodup_range)
  have hsubset : numbers.map (numbered name) ⊆ used := by
    intro f hf
    obtain ⟨n, hn, rfl⟩ := List.mem_map.mp hf
    exact hall n hn
  have hlength := (hnodup.subperm hsubset).length_le
  rw [List.length_map, hnumbers, List.length_map, List.length_range] at hlength
  omega

/-- A name that is made unique is new. It is the short one, the long one, or the long one with a
number. -/
theorem uniqueName_spec (short long : String) (used : List String) :
    uniqueName short long used ∉ used ∧
      (uniqueName short long used = short ∨ uniqueName short long used = long ∨
        ∃ n, 2 ≤ n ∧ uniqueName short long used = numbered long n) := by
  rw [uniqueName]
  split
  · next hshort => exact ⟨by simpa using hshort, Or.inl rfl⟩
  · split
    · next hlong => exact ⟨by simpa using hlong, Or.inr (Or.inl rfl)⟩
    · obtain ⟨n, hn, hnew⟩ := exists_numbered_notMem long used
      cases hfound : (((List.range (used.length + 1)).map (· + 2)).map (numbered long)).find?
          fun f ↦ !used.contains f with
      | none =>
        have hused := List.find?_eq_none.mp hfound _ (List.mem_map_of_mem hn)
        exact absurd hnew (by simpa using hused)
      | some f =>
        obtain ⟨m, hm, rfl⟩ := List.mem_map.mp (List.mem_of_find?_eq_some hfound)
        obtain ⟨k, -, rfl⟩ := List.mem_map.mp hm
        have hnew' : numbered long (k + 2) ∉ used := by simpa using List.find?_some hfound
        dsimp only
        rw [hfound]
        exact ⟨hnew', Or.inr (Or.inr ⟨k + 2, by omega, rfl⟩)⟩

theorem uniqueName_of_notMem_short (h : short ∉ used) : uniqueName short long used = short := by
  rw [uniqueName, if_pos (by simpa using h)]

theorem uniqueName_of_notMem_long (hshort : short ∈ used) (hlong : long ∉ used) :
    uniqueName short long used = long := by
  rw [uniqueName, if_neg (by simpa using hshort), if_pos (by simpa using hlong)]

theorem exists_uniqueName_eq_numbered (hshort : short ∈ used) (hlong : long ∈ used) :
    ∃ n, uniqueName short long used = numbered long n := by
  obtain ⟨hnew, hname | hname | ⟨n, -, hname⟩⟩ := uniqueName_spec short long used
  · rw [hname] at hnew
    exact absurd hshort hnew
  · rw [hname] at hnew
    exact absurd hlong hnew
  · exact ⟨n, hname⟩

/-- Only which names are in use matters, not their order. -/
theorem uniqueName_perm (h : used.Perm used') (short long : String) :
    uniqueName short long used = uniqueName short long used' := by
  have hcontains : ∀ name, used.contains name = used'.contains name := fun name ↦ h.contains_eq
  simp only [uniqueName, hcontains, h.length_eq]

/-! ## Names given out in turn -/

/-- The names that are given out in turn for pairs of a short and a long name. -/
def allot (candidates : List (String × String)) : List String :=
  candidates.foldl (fun used c ↦ used ++ [uniqueName c.1 c.2 used]) []

theorem allot_concat (candidates : List (String × String)) (c : String × String) :
    allot (candidates ++ [c]) = allot candidates ++ [uniqueName c.1 c.2 (allot candidates)] := by
  rw [allot, List.foldl_append]
  rfl

theorem nodup_allot (candidates : List (String × String)) : (allot candidates).Nodup := by
  induction candidates using List.reverseRecOn with
  | nil => exact List.nodup_nil
  | append_singleton candidates c ih =>
    rw [allot_concat, (List.perm_append_singleton _ _).nodup_iff, List.nodup_cons]
    exact ⟨(uniqueName_spec _ _ _).1, ih⟩

theorem exists_of_mem_allot (h : name ∈ allot candidates) :
    ∃ c ∈ candidates, name = c.1 ∨ name = c.2 ∨ ∃ n, name = numbered c.2 n := by
  induction candidates using List.reverseRecOn with
  | nil => exact absurd h List.not_mem_nil
  | append_singleton candidates c ih =>
    rw [allot_concat] at h
    rcases List.mem_append.mp h with h | h
    · obtain ⟨c', hc', hname⟩ := ih h
      exact ⟨c', List.mem_append_left _ hc', hname⟩
    · obtain rfl := List.mem_singleton.mp h
      obtain ⟨-, hname | hname | ⟨n, -, hname⟩⟩ := uniqueName_spec c.1 c.2 (allot candidates)
      · exact ⟨c, by simp, Or.inl hname⟩
      · exact ⟨c, by simp, Or.inr (Or.inl hname)⟩
      · exact ⟨c, by simp, Or.inr (Or.inr ⟨n, hname⟩)⟩

end XrBindings.Naming
