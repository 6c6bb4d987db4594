import Mathlib.Data.Fintype.Pigeonhole
import Mathlib.Data.Set.Finite.Basic
import Mathlib.Logic.Function.Iterate
import Mathlib.Logic.Relation

/-!
# Cycles

Which places of a relation lead to a cycle. Among finitely many places each of which has a
successor among them, every one does, because the successors repeat.

Where every place has at most one successor, each place starts one chain. Such a chain ends, at a
place without a successor, or it leads to a cycle, and it cannot do both.
-/

namespace XrBindings

open Relation

variable {α : Type} {r : α → α → Prop} {a b c x y : α}

/-! ## Leading to a cycle -/

/-- From the place a cycle can be reached. -/
def LeadsToCycle (r : α → α → Prop) (a : α) : Prop := ∃ c, ReflTransGen r a c ∧ TransGen r c c

theorem LeadsToCycle.head (hab : r a b) (h : LeadsToCycle r b) : LeadsToCycle r a := by
  obtain ⟨c, hbc, hcc⟩ := h
  exact ⟨c, hbc.head hab, hcc⟩

theorem LeadsToCycle.exists_succ (h : LeadsToCycle r a) : ∃ b, r a b ∧ LeadsToCycle r b := by
  obtain ⟨c, hac, hcc⟩ := h
  obtain rfl | ⟨b, hab, hbc⟩ := hac.cases_head
  · obtain ⟨b, hab, hba⟩ := TransGen.head'_iff.mp hcc
    exact ⟨b, hab, a, hba, hcc⟩
  · exact ⟨b, hab, c, hbc, hcc⟩

theorem LeadsToCycle.lift {β : Type} {p : β → β → Prop} (f : α → β)
    (hf : ∀ a b, r a b → p (f a) (f b)) (h : LeadsToCycle r a) : LeadsToCycle p (f a) := by
  obtain ⟨c, hac, hcc⟩ := h
  exact ⟨f c, hac.lift f hf, hcc.lift f hf⟩

theorem not_leadsToCycle_of_acyclic (h : ∀ c, ¬TransGen r c c) (a : α) : ¬LeadsToCycle r a :=
  fun ⟨c, _, hcc⟩ ↦ h c hcc

theorem reflTransGen_iterate {f : α → α} (hf : ∀ a, r a (f a)) (a : α) (n : ℕ) :
    ReflTransGen r a (f^[n] a) := by
  induction n with
  | zero => exact .refl
  | succ n ih =>
    rw [Function.iterate_succ_apply']
    exact ih.tail (hf _)

/-- If everything has a successor, everything leads to a cycle, provided that there are only
finitely many places: of the successors of successors two are the same. -/
theorem leadsToCycle_of_finite [Finite α] (h : ∀ a, ∃ b, r a b) (a : α) : LeadsToCycle r a := by
  choose f hf using h
  obtain ⟨m, n, hne, heq⟩ := Finite.exists_ne_map_eq_of_infinite fun n ↦ f^[n] a
  wlog hlt : m < n generalizing m n
  · exact this n m hne.symm heq.symm (by omega)
  refine ⟨f^[m] a, reflTransGen_iterate hf a m, ?_⟩
  obtain ⟨k, rfl⟩ : ∃ k, n = m + (k + 1) := ⟨n - m - 1, by omega⟩
  have hcycle : f^[k] (f (f^[m] a)) = f^[m] a := by
    rw [← Function.iterate_succ_apply, ← Function.iterate_add_apply, Nat.add_comm]
    exact heq.symm
  have hreach := reflTransGen_iterate hf (f (f^[m] a)) k
  rw [hcycle] at hreach
  exact TransGen.head' (hf _) hreach

/-- The same within a list of places. -/
theorem leadsToCycle_of_forall_mem {places : List α} (h : ∀ a ∈ places, ∃ b ∈ places, r a b)
    (ha : a ∈ places) : LeadsToCycle r a := by
  have : Finite {x // x ∈ places} := List.finite_toSet places
  obtain ⟨c, hac, hcc⟩ := leadsToCycle_of_finite
    (r := fun a b : {x // x ∈ places} ↦ r a.1 b.1)
    (fun a ↦ let ⟨b, hb, hab⟩ := h a.1 a.2; ⟨⟨b, hb⟩, hab⟩) ⟨a, ha⟩
  exact ⟨c.1, hac.lift Subtype.val fun _ _ hab ↦ hab, hcc.lift Subtype.val fun _ _ hab ↦ hab⟩

/-! ## Chains -/

/-- The chain from a place ends at another. -/
def EndsAt (r : α → α → Prop) (a x : α) : Prop := ReflTransGen r a x ∧ ∀ b, ¬r x b

theorem EndsAt.refl (h : ∀ b, ¬r a b) : EndsAt r a a := ⟨.refl, h⟩

theorem EndsAt.head (hab : r a b) (h : EndsAt r b x) : EndsAt r a x := ⟨h.1.head hab, h.2⟩

theorem EndsAt.of_reflTransGen (hr : Relator.RightUnique r) (h : EndsAt r a x)
    (hab : ReflTransGen r a b) : EndsAt r b x := by
  obtain hbx | hxb := ReflTransGen.total_of_right_unique hr hab h.1
  · exact ⟨hbx, h.2⟩
  · obtain rfl | ⟨c, hxc, -⟩ := hxb.cases_head
    · exact EndsAt.refl h.2
    · exact absurd hxc (h.2 c)

theorem EndsAt.unique (hr : Relator.RightUnique r) (hx : EndsAt r a x) (hy : EndsAt r a y) :
    x = y := by
  obtain h | ⟨c, hxc, -⟩ := (hy.of_reflTransGen hr hx.1).1.cases_head
  · exact h
  · exact absurd hxc (hx.2 c)

theorem EndsAt.not_leadsToCycle (hr : Relator.RightUnique r) (h : EndsAt r a x) :
    ¬LeadsToCycle r a := by
  obtain ⟨hax, hx⟩ := h
  intro hcycle
  -- Along the chain everything leads to the cycle, so the end has a successor.
  induction hax using ReflTransGen.head_induction_on with
  | refl =>
    obtain ⟨b, hxb, -⟩ := hcycle.exists_succ
    exact hx b hxb
  | head hab _ ih =>
    obtain ⟨b', hab', hb'⟩ := hcycle.exists_succ
    obtain rfl := hr hab hab'
    exact ih hb'

end XrBindings
