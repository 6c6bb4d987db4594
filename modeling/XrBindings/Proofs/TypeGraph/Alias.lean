import XrBindings.Proofs.Chain
import XrBindings.Proofs.Registry.Accepted
import XrBindings.TypeGraph.Alias

/-!
# What a type name stands for

A name stands for the declaration at the end of its chain of aliases. Looking for that declaration
finds it whenever there is one. In an accepted document every alias has a declared target, so for
a declared name the search fails only if the chain leads to a cycle.
-/

namespace XrBindings

open Relation

variable {types : Table TypeName TypeDecl} {a b c : TypeName}

/-- A name is declared as an alias of another one. -/
def AliasOf (types : Table TypeName TypeDecl) (a b : TypeName) : Prop :=
  ∃ decl target, types.get? a = some decl ∧ decl.aliasTarget? = some target ∧ b = some target

/-- A name stands for a declaration: its chain of aliases ends there. -/
def StandsFor (types : Table TypeName TypeDecl) (a b : TypeName) : Prop :=
  EndsAt (AliasOf types) a b ∧ b ∈ types.keys

theorem rightUnique_aliasOf : Relator.RightUnique (AliasOf types) := by
  rintro a b c ⟨decl, target, hdecl, htarget, rfl⟩ ⟨decl', target', hdecl', htarget', rfl⟩
  rw [hdecl, Option.some.injEq] at hdecl'
  subst hdecl'
  rw [htarget, Option.some.injEq] at htarget'
  rw [htarget']

theorem step_aliasLinks : Chain.Step (aliasLinks types) = AliasOf types := by
  ext a b
  rw [aliasLinks, Chain.step_filterMap_iff types.nodup_keys]
  simp only [AliasOf, Table.get?_eq_some_iff]
  constructor
  · rintro ⟨⟨name, decl⟩, hmem, rfl, target, htarget, rfl⟩
    exact ⟨decl, target, hmem, htarget, rfl⟩
  · rintro ⟨decl, target, hmem, htarget, rfl⟩
    exact ⟨(a, decl), hmem, rfl, target, htarget, rfl⟩

theorem AliasOf.mem_keys (hd : AliasesDeclared types) (h : AliasOf types a b) :
    b ∈ types.keys := by
  obtain ⟨decl, target, hdecl, htarget, rfl⟩ := h
  exact hd decl ((types.mem_values_iff).mpr ⟨a, hdecl⟩) target htarget

theorem AliasOf.left_mem_keys (h : AliasOf types a b) : a ∈ types.keys := by
  obtain ⟨decl, -, hdecl, -, -⟩ := h
  exact (types.mem_keys_iff).mpr ⟨decl, hdecl⟩

theorem mem_keys_of_reflTransGen (hd : AliasesDeclared types) (ha : a ∈ types.keys)
    (h : ReflTransGen (AliasOf types) a b) : b ∈ types.keys := by
  cases h with
  | refl => exact ha
  | tail _ hcb => exact hcb.mem_keys hd

/-- A declaration that is no alias ends the chains that come to it. -/
theorem not_aliasOf_iff {decl : TypeDecl} (h : types.get? a = some decl) :
    (∀ b, ¬AliasOf types a b) ↔ decl.isAlias = false := by
  constructor
  · intro hend
    by_contra halias
    rw [Bool.not_eq_false, TypeDecl.isAlias, Option.isSome_iff_exists] at halias
    obtain ⟨target, htarget⟩ := halias
    exact hend _ ⟨decl, target, h, htarget, rfl⟩
  · rintro halias b ⟨decl', target, hdecl', htarget, -⟩
    rw [h, Option.some.injEq] at hdecl'
    subst hdecl'
    rw [TypeDecl.isAlias, htarget] at halias
    exact absurd halias (by simp)

/-! ## The search -/

/-- The search finds exactly what a name stands for. -/
theorem aliasTarget_eq_ok_iff : aliasTarget types a = .ok b ↔ StandsFor types a b := by
  rw [StandsFor, ← step_aliasLinks, ← Chain.follow_eq_arrives_iff, aliasTarget]
  cases Chain.follow (aliasLinks types) a with
  | arrives last =>
    dsimp only
    split
    · next hlast =>
      rw [Table.contains_iff] at hlast
      simp only [Except.ok.injEq, Chain.Outcome.arrives.injEq]
      constructor
      · rintro rfl
        exact ⟨rfl, hlast⟩
      · exact fun h ↦ h.1
    · next hlast =>
      rw [Table.contains_iff] at hlast
      simp only [Result.reject_ne_ok, Chain.Outcome.arrives.injEq, false_iff]
      rintro ⟨rfl, hb⟩
      exact hlast hb
  | returns passed again =>
    dsimp only
    split <;> simp [Result.reject_ne_ok]

theorem StandsFor.isAlias_eq_false {decl : TypeDecl} (h : StandsFor types a b)
    (hb : types.get? b = some decl) : decl.isAlias = false := (not_aliasOf_iff hb).mp h.1.2

theorem StandsFor.unique (hb : StandsFor types a b) (hc : StandsFor types a c) : b = c :=
  hb.1.unique rightUnique_aliasOf hc.1

theorem standsFor_self {decl : TypeDecl} (h : types.get? a = some decl)
    (halias : decl.isAlias = false) : StandsFor types a a :=
  ⟨.refl ((not_aliasOf_iff h).mpr halias), types.mem_keys_iff.mpr ⟨decl, h⟩⟩

theorem StandsFor.self (h : StandsFor types a b) : StandsFor types b b := ⟨.refl h.1.2, h.2⟩

theorem StandsFor.mem_keys (h : StandsFor types a b) : a ∈ types.keys := by
  obtain rfl | ⟨c, hac, -⟩ := h.1.1.cases_head
  · exact h.2
  · exact hac.left_mem_keys

theorem exists_standsFor_or_leadsToCycle (hd : AliasesDeclared types) (ha : a ∈ types.keys) :
    (∃ b, StandsFor types a b) ∨ LeadsToCycle (AliasOf types) a := by
  rw [← step_aliasLinks]
  obtain ⟨b, hb⟩ | hcycle := Chain.exists_endsAt_or_leadsToCycle (aliasLinks types) a
  · rw [step_aliasLinks] at hb
    exact Or.inl ⟨b, hb, mem_keys_of_reflTransGen hd ha hb.1⟩
  · exact Or.inr hcycle

theorem mapM_id_eq_none {chain : List TypeName} (h : none ∈ chain) : chain.mapM id = none := by
  induction chain with
  | nil => exact absurd h List.not_mem_nil
  | cons a chain ih =>
    rw [List.mapM_cons]
    obtain rfl | hrest := List.mem_cons.mp h
    · rfl
    · cases a with
      | none => rfl
      | some s => simp [ih hrest]

theorem exists_mapM_id_eq_some {chain : List TypeName} (h : ∀ a ∈ chain, a ≠ none) :
    ∃ names, chain.mapM id = some names := by
  induction chain with
  | nil => exact ⟨[], rfl⟩
  | cons a chain ih =>
    rw [List.forall_mem_cons] at h
    obtain ⟨s, rfl⟩ := Option.ne_none_iff_exists'.mp h.1
    obtain ⟨names, hnames⟩ := ih h.2
    exact ⟨s :: names, by simp [hnames]⟩

/-- Where the chain leads to a cycle the search fails. The failure is a proper rejection exactly if
the name from which the search started is given: all other names on the way are targets, which are
given. -/
theorem aliasTarget_of_leadsToCycle (h : LeadsToCycle (AliasOf types) a) :
    a = none ∧ aliasTarget types a = .error .namelessCycle ∨
      a ≠ none ∧ ∃ chain, aliasTarget types a = reject (.aliasCycle chain) := by
  rw [← step_aliasLinks] at h
  obtain ⟨passed, again, hfollow⟩ := Chain.exists_follow_eq_returns_iff.mpr h
  obtain ⟨rest, hchain, hrest⟩ := Chain.returns_eq_cons hfollow
  -- The names on the way can be written unless the first one is missing.
  rw [aliasTarget, hfollow]
  simp only [hchain]
  cases a with
  | none =>
    rw [mapM_id_eq_none List.mem_cons_self]
    exact Or.inl ⟨rfl, rfl⟩
  | some s =>
    have hnames : ∀ b ∈ some s :: rest, b ≠ none := by
      rw [List.forall_mem_cons]
      refine ⟨by simp, fun b hb ↦ ?_⟩
      obtain ⟨c, hcb⟩ := hrest b hb
      rw [step_aliasLinks] at hcb
      obtain ⟨-, target, -, -, rfl⟩ := hcb
      simp
    obtain ⟨names, hnames⟩ := exists_mapM_id_eq_some hnames
    rw [hnames]
    exact Or.inr ⟨by simp, names, rfl⟩

theorem aliasTarget_of_undeclared (h : EndsAt (AliasOf types) a b) (hb : b ∉ types.keys) :
    aliasTarget types a = reject (.undeclaredAliasTarget a (nameText b)) := by
  rw [← step_aliasLinks, ← Chain.follow_eq_arrives_iff] at h
  rw [aliasTarget, h]
  dsimp only
  rw [if_neg (by rwa [Table.contains_iff])]

/-- **Why the search fails**: the chain ends at a name that is not declared, or it leads to a
cycle. -/
theorem of_aliasTarget_eq_error {e : Failure} (h : aliasTarget types a = .error e) :
    (∃ b, EndsAt (AliasOf types) a b ∧ b ∉ types.keys ∧
      e = .rejected (.undeclaredAliasTarget a (nameText b))) ∨
    LeadsToCycle (AliasOf types) a ∧
      (a = none ∧ e = .namelessCycle ∨ a ≠ none ∧ ∃ chain, e = .rejected (.aliasCycle chain)) := by
  obtain ⟨b, hends⟩ | hcycle := Chain.exists_endsAt_or_leadsToCycle (aliasLinks types) a
  · rw [step_aliasLinks] at hends
    by_cases hb : b ∈ types.keys
    · rw [aliasTarget_eq_ok_iff.mpr ⟨hends, hb⟩] at h
      exact absurd h (by simp)
    · have hfails := h.symm.trans (aliasTarget_of_undeclared hends hb)
      exact Or.inl ⟨b, hends, hb, Except.error.inj hfails⟩
  · rw [step_aliasLinks] at hcycle
    refine Or.inr ⟨hcycle, ?_⟩
    rcases aliasTarget_of_leadsToCycle hcycle with ⟨hnone, hfails⟩ | ⟨hgiven, chain, hfails⟩
    · exact Or.inl ⟨hnone, Except.error.inj (h.symm.trans hfails)⟩
    · exact Or.inr ⟨hgiven, chain, Except.error.inj (h.symm.trans hfails)⟩

theorem aliasTarget_eq_error (hd : AliasesDeclared types) (ha : a ∈ types.keys) {e : Failure}
    (h : aliasTarget types a = .error e) :
    LeadsToCycle (AliasOf types) a ∧
      (a = none ∧ e = .namelessCycle ∨ a ≠ none ∧ ∃ chain, e = .rejected (.aliasCycle chain)) := by
  rcases of_aliasTarget_eq_error h with ⟨b, hends, hb, -⟩ | hcycle
  · exact absurd (mem_keys_of_reflTransGen hd ha hends.1) hb
  · exact hcycle

theorem acyclic_aliasOf_iff (hd : AliasesDeclared types) :
    (∀ n, ¬TransGen (AliasOf types) n n) ↔ ∀ a ∈ types.keys, ∃ b, aliasTarget types a = .ok b := by
  simp only [aliasTarget_eq_ok_iff]
  constructor
  · intro hacyclic a ha
    obtain hstands | hcycle := exists_standsFor_or_leadsToCycle hd ha
    · exact hstands
    · exact absurd hcycle (not_leadsToCycle_of_acyclic hacyclic a)
  · intro hall n hcycle
    obtain ⟨m, hnm, -⟩ := TransGen.head'_iff.mp hcycle
    obtain ⟨b, hb⟩ := hall n hnm.left_mem_keys
    exact hb.1.not_leadsToCycle rightUnique_aliasOf ⟨n, .refl, hcycle⟩

end XrBindings
