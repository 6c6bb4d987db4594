import Mathlib.Tactic.Common
import XrBindings.Proofs.Distinct
import XrBindings.Proofs.TypeGraph.Order

/-!
# Spellings and groups

The names that stand for one declaration form a group. Groups are found by listing what every name
stands for; here a group is known by its declaration alone, and the spelling of a name is described
by what the name stands for. That the groups do not overlap is what makes the table of spellings
say of every name what its own group prefers.
-/

namespace XrBindings

open Relation XrBindings.Xml

variable {d : Document} {groups : List AliasGroup} {g : AliasGroup}
  {canonical : Table TypeName TypeName} {a b c n t : TypeName}

/-! ## Groups -/

/-- A group of names is what stands for a declaration, in document order. -/
structure AliasGroup.Sound (types : Table TypeName TypeDecl) (g : AliasGroup) : Prop where
  mem_names : ∀ n, n ∈ g.names ↔ StandsFor types n g.terminal
  sublist : g.names.Sublist types.keys

/-- The groups are those of all declarations that something stands for, each once. -/
theorem aliasGroups_spec {types : Table TypeName TypeDecl} (h : aliasGroups types = .ok groups) :
    (∀ g ∈ groups, g.Sound types) ∧ (groups.map (·.terminal)).Nodup ∧
      ∀ n t, StandsFor types n t → ∃ g ∈ groups, g.terminal = t := by
  obtain ⟨terminals, hterminals, h⟩ := Result.bind_eq_ok_iff.mp h
  obtain rfl := Result.pure_eq_ok_iff.mp h
  -- The list of pairs is the relation itself, with the names in document order.
  have hmem : ∀ n t, (n, t) ∈ terminals ↔ StandsFor types n t := by
    intro n t
    simp only [Result.mem_of_mapM_bind hterminals, Prod.mk.injEq, aliasTarget_eq_ok_iff]
    constructor
    · rintro ⟨_, -, _, hstands, rfl, rfl⟩
      exact hstands
    · intro hstands
      exact ⟨n, hstands.mem_keys, t, hstands, rfl, rfl⟩
  have hkeys : terminals.map Prod.fst = types.keys := by
    rw [Result.map_eq_of_mapM_bind hterminals fun _ _ ↦ rfl, List.map_id']
  refine ⟨fun g hg ↦ ?_, ?_, fun n t hstands ↦ ?_⟩
  · obtain ⟨t, -, rfl⟩ := List.mem_map.mp hg
    refine ⟨fun n ↦ ?_, hkeys ▸ List.filter_sublist.map _⟩
    rw [← hmem]
    simp
  · rw [List.map_map]
    exact (List.map_id' _).symm ▸ nodup_eraseDups _
  · refine ⟨_, List.mem_map_of_mem (List.mem_eraseDups.mpr ?_), rfl⟩
    exact List.mem_map.mpr ⟨(n, t), (hmem n t).mpr hstands, rfl⟩

/-- The spelling that a group prefers: its declaration, if this is core or nothing is, and
otherwise its first core name. -/
def Document.Prefers (d : Document) (t c : TypeName) : Prop :=
  (d.isCore t = true ∨ ∀ m, StandsFor d.types m t → d.isCore m = false) ∧ c = t ∨
    d.isCore t = false ∧ StandsFor d.types c t ∧ d.isCore c = true ∧
      ∀ m, StandsFor d.types m t → d.isCore m = true →
        d.types.keys.idxOf c ≤ d.types.keys.idxOf m

theorem Document.Prefers.standsFor (h : d.Prefers t c) (ht : StandsFor d.types t t) :
    StandsFor d.types c t := by
  obtain ⟨-, rfl⟩ | ⟨-, hc, -⟩ := h
  · exact ht
  · exact hc

theorem Document.Prefers.unique (hb : d.Prefers t b) (hc : d.Prefers t c) : b = c := by
  obtain ⟨hbcore, rfl⟩ | ⟨hbt, hb, hbcore, hbfirst⟩ := hb
  · obtain ⟨-, rfl⟩ | ⟨hct, hc, hccore, -⟩ := hc
    · rfl
    · obtain hcore | hnone := hbcore
      · exact absurd hcore (by simp [hct])
      · exact absurd hccore (by simp [hnone c hc])
  · obtain ⟨hccore, rfl⟩ | ⟨-, hc, hccore, hcfirst⟩ := hc
    · obtain hcore | hnone := hccore
      · exact absurd hcore (by simp [hbt])
      · exact absurd hbcore (by simp [hnone b hb])
    · have hindex := le_antisymm (hbfirst c hc hccore) (hcfirst b hb hbcore)
      exact (List.idxOf_inj hb.mem_keys).mp hindex

theorem prefers_preferredSpelling (hg : g.Sound d.types) :
    d.Prefers g.terminal (d.preferredSpelling g) := by
  rw [Document.preferredSpelling]
  split
  · next hcore => exact Or.inl ⟨Or.inl hcore, rfl⟩
  · next hcore =>
    rw [Bool.not_eq_true] at hcore
    cases hfind : g.names.find? d.isCore with
    | none =>
      refine Or.inl ⟨Or.inr fun m hm ↦ ?_, rfl⟩
      exact Bool.not_eq_true _ ▸ List.find?_eq_none.mp hfind m ((hg.mem_names m).mpr hm)
    | some c =>
      obtain ⟨hc, before, after, hsplit, hbefore⟩ := List.find?_eq_some_iff_append.mp hfind
      have hmem : c ∈ g.names := by simp [hsplit]
      refine Or.inr ⟨hcore, (hg.mem_names c).mp hmem, hc, fun m hm hmcore ↦ ?_⟩
      -- The names of a group keep the document order, so the first that is found is first there.
      have hpair := (pairwise_idxOf_lt d.types.nodup_keys).sublist hg.sublist
      have hm := (hg.mem_names m).mpr hm
      rw [hsplit] at hpair hm
      obtain hm | hm := List.mem_append.mp hm
      · exact absurd hmcore (by simpa using hbefore m hm)
      · obtain rfl | hm := List.mem_cons.mp hm
        · exact le_refl _
        · exact ((List.pairwise_cons.mp (List.pairwise_append.mp hpair).2.1).1 m hm).le

theorem pairwise_disjoint_names {types : Table TypeName TypeDecl}
    (hsound : ∀ g ∈ groups, g.Sound types) (hd : (groups.map (·.terminal)).Nodup) :
    groups.Pairwise fun g g' ↦ List.Disjoint g.names g'.names := by
  rw [List.Nodup, List.pairwise_map] at hd
  refine hd.imp_of_mem fun hg hg' hne ↦ ?_
  intro n hn hn'
  exact hne (((hsound _ hg).mem_names n).mp hn |>.unique (((hsound _ hg').mem_names n).mp hn'))

/-! ## The table of spellings -/

theorem get?_canonicalSpellings_iff_exists_group (h : aliasGroups d.types = .ok groups)
    (hcanonical : d.canonicalSpellings = .ok canonical) :
    canonical.get? n = some c ↔ ∃ g ∈ groups, n ∈ g.names ∧ d.preferredSpelling g = c := by
  obtain ⟨hsound, hterminals, -⟩ := aliasGroups_spec h
  rw [Document.canonicalSpellings, h] at hcanonical
  obtain rfl := Result.pure_eq_ok_iff.mp hcanonical
  have hnames : (groups.flatMap fun g ↦ g.names.map (·, d.preferredSpelling g)).map Prod.fst
      = groups.flatMap (·.names) := by
    rw [List.map_flatMap]
    simp only [List.map_map, Function.comp_def, List.map_id']
  have hnodup : (groups.flatMap (·.names)).Nodup := by
    refine List.nodup_flatMap.mpr ⟨fun g hg ↦ ?_, pairwise_disjoint_names hsound hterminals⟩
    exact d.types.nodup_keys.sublist (hsound g hg).sublist
  rw [Table.get?_eq_some_iff, Table.entries_ofList (hnames ▸ hnodup)]
  simp only [List.mem_flatMap, List.mem_map, Prod.mk.injEq]
  constructor
  · rintro ⟨g, hg, m, hm, rfl, hc⟩
    exact ⟨g, hg, hm, hc⟩
  · rintro ⟨g, hg, hn, hc⟩
    exact ⟨g, hg, n, hn, rfl, hc⟩

/-- The spelling of a name is the one that its group prefers. -/
theorem get?_canonicalSpellings_iff (h : d.canonicalSpellings = .ok canonical) :
    canonical.get? n = some c ↔ ∃ t, StandsFor d.types n t ∧ d.Prefers t c := by
  obtain ⟨groups, hgroups, -⟩ := Result.bind_eq_ok_iff.mp h
  obtain ⟨hsound, -, hall⟩ := aliasGroups_spec hgroups
  rw [get?_canonicalSpellings_iff_exists_group hgroups h]
  constructor
  · rintro ⟨g, hg, hn, rfl⟩
    exact ⟨g.terminal, ((hsound g hg).mem_names n).mp hn, prefers_preferredSpelling (hsound g hg)⟩
  · rintro ⟨t, hstands, hprefers⟩
    obtain ⟨g, hg, rfl⟩ := hall n t hstands
    exact ⟨g, hg, ((hsound g hg).mem_names n).mpr hstands,
      (prefers_preferredSpelling (hsound g hg)).unique hprefers⟩

theorem exists_canonicalSpellings_iff :
    (∃ canonical, d.canonicalSpellings = .ok canonical)
      ↔ ∀ a ∈ d.types.keys, ∃ b, aliasTarget d.types a = .ok b := by
  constructor
  · rintro ⟨canonical, h⟩ a ha
    obtain ⟨groups, hgroups, -⟩ := Result.bind_eq_ok_iff.mp h
    obtain ⟨terminals, hterminals, -⟩ := Result.bind_eq_ok_iff.mp hgroups
    obtain ⟨b, hb, -⟩ := Result.exists_of_mapM_bind hterminals ha
    exact ⟨b, hb⟩
  · intro hall
    obtain ⟨terminals, hterminals⟩ := Result.exists_mapM_bind_eq_ok (k := Prod.mk) hall
    rw [Document.canonicalSpellings, aliasGroups, hterminals]
    exact ⟨_, rfl⟩

/-- Spellings fail with the first name, in document order, for which the search fails. -/
theorem canonicalSpellings_eq_error {e : Failure} (h : d.canonicalSpellings = .error e) :
    ∃ before n after, d.types.keys = before ++ n :: after ∧
      (∀ m ∈ before, ∃ b, StandsFor d.types m b) ∧ aliasTarget d.types n = .error e := by
  obtain hgroups | ⟨groups, -, hpure⟩ := Result.bind_eq_error_iff.mp h
  · obtain hterminals | ⟨terminals, -, hpure⟩ := Result.bind_eq_error_iff.mp hgroups
    · obtain ⟨before, n, after, found, hsplit, hbefore, hn⟩ :=
        Result.mapM_eq_error_iff.mp hterminals
      refine ⟨before, n, after, hsplit, fun m hm ↦ ?_, ?_⟩
      · obtain ⟨b, hb, -⟩ := Result.exists_of_mapM_bind hbefore hm
        exact ⟨b, aliasTarget_eq_ok_iff.mp hb⟩
      · obtain hn | ⟨b, -, hpure⟩ := Result.bind_eq_error_iff.mp hn
        · exact hn
        · exact absurd hpure Result.pure_ne_error
    · exact absurd hpure Result.pure_ne_error
  · exact absurd hpure Result.pure_ne_error

theorem mem_keys_canonicalSpellings_iff (h : d.canonicalSpellings = .ok canonical) :
    n ∈ canonical.keys ↔ n ∈ d.types.keys := by
  simp only [Table.mem_keys_iff canonical, get?_canonicalSpellings_iff h]
  constructor
  · rintro ⟨c, t, hstands, -⟩
    exact hstands.mem_keys
  · intro hn
    obtain ⟨t, ht⟩ := exists_canonicalSpellings_iff.mp ⟨canonical, h⟩ n hn
    obtain ⟨groups, hgroups, -⟩ := Result.bind_eq_ok_iff.mp h
    obtain ⟨hsound, -, hall⟩ := aliasGroups_spec hgroups
    have hstands := aliasTarget_eq_ok_iff.mp ht
    obtain ⟨g, hg, rfl⟩ := hall n t hstands
    exact ⟨_, g.terminal, hstands, prefers_preferredSpelling (hsound g hg)⟩

theorem get?_canonicalSpellings_eq_iff (h : d.canonicalSpellings = .ok canonical)
    (ha : a ∈ d.types.keys) (hb : b ∈ d.types.keys) :
    canonical.get? a = canonical.get? b ↔ ∃ t, StandsFor d.types a t ∧ StandsFor d.types b t := by
  rw [← mem_keys_canonicalSpellings_iff h, Table.mem_keys_iff] at ha hb
  obtain ⟨x, hx⟩ := ha
  obtain ⟨y, hy⟩ := hb
  obtain ⟨s, has, hsx⟩ := (get?_canonicalSpellings_iff h).mp hx
  obtain ⟨t, hbt, hty⟩ := (get?_canonicalSpellings_iff h).mp hy
  rw [hx, hy, Option.some.injEq]
  constructor
  · rintro rfl
    obtain rfl := (hsx.standsFor has.self).unique (hty.standsFor hbt.self)
    exact ⟨s, has, hbt⟩
  · rintro ⟨u, hau, hbu⟩
    obtain rfl := has.unique hau
    obtain rfl := hbt.unique hbu
    exact hsx.unique hty

/-- The spelling of a name belongs to its group and is spelled as itself. -/
theorem canonicalSpellings_idempotent (h : d.canonicalSpellings = .ok canonical)
    (hget : canonical.get? n = some c) (ht : StandsFor d.types n t) :
    StandsFor d.types c t ∧ d.Prefers t c ∧ canonical.get? c = some c := by
  obtain ⟨s, hs, hprefers⟩ := (get?_canonicalSpellings_iff h).mp hget
  obtain rfl := hs.unique ht
  have hc := hprefers.standsFor hs.self
  exact ⟨hc, hprefers, (get?_canonicalSpellings_iff h).mpr ⟨s, hc, hprefers⟩⟩

/-! ## Aliases in the bindings -/

variable {graph : TypeGraph}

theorem typeGraph_eq_ok (h : d.typeGraph = .ok graph) :
    d.canonicalSpellings = .ok graph.canonical ∧ typeOrder d.types = .ok graph.order ∧
      graph.aliases = d.types.keys.filterMap fun name ↦
        let spelling := (graph.canonical.get? name).getD name
        if name == spelling then none else some (name, spelling) := by
  obtain ⟨canonical, hcanonical, h⟩ := Result.bind_eq_ok_iff.mp h
  obtain ⟨order, horder, h⟩ := Result.bind_eq_ok_iff.mp h
  obtain rfl := Result.pure_eq_ok_iff.mp h
  exact ⟨hcanonical, horder, rfl⟩

/-- The aliases are the names that are spelled differently, with their spellings. -/
theorem mem_aliases_iff (h : d.typeGraph = .ok graph) :
    (n, c) ∈ graph.aliases ↔ graph.canonical.get? n = some c ∧ n ≠ c := by
  obtain ⟨hcanonical, -, haliases⟩ := typeGraph_eq_ok h
  rw [haliases, List.mem_filterMap]
  constructor
  · rintro ⟨m, hm, hmc⟩
    rw [← mem_keys_canonicalSpellings_iff hcanonical, Table.mem_keys_iff] at hm
    obtain ⟨x, hx⟩ := hm
    simp only [hx, Option.getD_some, beq_iff_eq] at hmc
    split at hmc
    · exact absurd hmc (by simp)
    · next hne =>
      obtain ⟨rfl, rfl⟩ := Prod.mk.inj (Option.some.inj hmc)
      exact ⟨hx, hne⟩
  · rintro ⟨hget, hne⟩
    refine ⟨n, ?_, by simp [hget, hne]⟩
    rw [← mem_keys_canonicalSpellings_iff hcanonical, Table.mem_keys_iff]
    exact ⟨c, hget⟩

theorem map_fst_aliases_sublist (h : d.typeGraph = .ok graph) :
    (graph.aliases.map Prod.fst).Sublist d.types.keys := by
  obtain ⟨-, -, haliases⟩ := typeGraph_eq_ok h
  rw [haliases]
  refine (map_filterMap_sublist id (fun n e he ↦ ?_) d.types.keys).trans ?_
  · dsimp only at he
    split at he
    · exact absurd he (by simp)
    · rw [← Option.some.inj he, id]
  · rw [List.map_id]

theorem mem_map_fst_aliases_iff (h : d.typeGraph = .ok graph) :
    n ∈ graph.aliases.map Prod.fst ↔ ∃ c, graph.canonical.get? n = some c ∧ n ≠ c := by
  simp only [List.mem_map, Prod.exists, exists_and_right, exists_eq_right, mem_aliases_iff h]

/-- The one name of a group that is no alias is the spelling that it prefers. -/
theorem existsUnique_notMem_aliases (h : d.typeGraph = .ok graph) (ht : StandsFor d.types t t) :
    ∃! n, StandsFor d.types n t ∧ n ∉ graph.aliases.map Prod.fst := by
  have hcanonical := (typeGraph_eq_ok h).1
  have hkey := (mem_keys_canonicalSpellings_iff hcanonical).mpr ht.mem_keys
  obtain ⟨c, hc⟩ := graph.canonical.mem_keys_iff.mp hkey
  obtain ⟨hstands, hprefers, hself⟩ := canonicalSpellings_idempotent hcanonical hc ht
  refine ⟨c, ⟨hstands, ?_⟩, ?_⟩
  · rw [mem_map_fst_aliases_iff h]
    rintro ⟨x, hx, hne⟩
    rw [hself, Option.some.injEq] at hx
    exact hne hx
  · rintro n ⟨hn, hnot⟩
    by_contra hne
    have hget : graph.canonical.get? n = some c :=
      (get?_canonicalSpellings_iff hcanonical).mpr ⟨t, hn, hprefers⟩
    exact hnot ((mem_map_fst_aliases_iff h).mpr ⟨c, hget, hne⟩)

theorem existsUnique_mem_order (hn : TypesNamed d.types) (h : d.typeGraph = .ok graph)
    (ht : StandsFor d.types t t) :
    ∃! decl, decl ∈ graph.order ∧ StandsFor d.types decl.name t := by
  have horder := (typeGraph_eq_ok h).2.1
  obtain ⟨decl, hdecl⟩ := d.types.mem_keys_iff.mp ht.2
  obtain rfl := hn t decl hdecl
  have hvalue := d.types.mem_values_iff.mpr ⟨_, hdecl⟩
  refine ⟨decl, ⟨?_, ht⟩, ?_⟩
  · exact (mem_typeOrder_iff hn horder).mpr
      (mem_properDeclarations_iff.mpr ⟨hvalue, ht.isAlias_eq_false hdecl⟩)
  · rintro other ⟨hother, hstands⟩
    rw [mem_typeOrder_iff hn horder, mem_properDeclarations_iff] at hother
    have hself := standsFor_self (hn.get?_name hother.1) hother.2
    exact hn.eq_of_name hother.1 hvalue (hself.unique hstands)

/-! ## The result -/

/-- **One spelling for each group.** In an accepted document spellings fail exactly if the aliases
have a cycle. The failure is a proper rejection unless the first name of the document that leads to
a cycle is missing. Otherwise every declared name has a spelling: names of one group have the one
that the group prefers, which is spelled as itself, and names of different groups have different
ones. The aliases are the names that are spelled differently, and of each group one name is no alias
and one declaration is put in order. -/
theorem canonicalSpellings_prefer {d : Document} (hd : d.Accepted) :
    ((∃ e, d.canonicalSpellings = .error e) ↔ ∃ n, TransGen (AliasOf d.types) n n) ∧
    (∀ e, d.canonicalSpellings = .error e → ∃ before n after,
      d.types.keys = before ++ n :: after ∧ LeadsToCycle (AliasOf d.types) n ∧
      (∀ m ∈ before, ¬LeadsToCycle (AliasOf d.types) m) ∧
      (n = none ∧ e = .namelessCycle ∨
        n ≠ none ∧ ∃ error, e = .rejected error ∧ error.code = .cyclicTypeDependency)) ∧
    (∀ canonical, d.canonicalSpellings = .ok canonical →
      (∀ n, n ∈ canonical.keys ↔ n ∈ d.types.keys) ∧
      (∀ a ∈ d.types.keys, ∀ b ∈ d.types.keys, canonical.get? a = canonical.get? b ↔
        ∃ t, StandsFor d.types a t ∧ StandsFor d.types b t) ∧
      ∀ n c, canonical.get? n = some c → canonical.get? c = some c ∧
        ∃ t, StandsFor d.types n t ∧ StandsFor d.types c t ∧ d.Prefers t c) ∧
    ∀ graph, d.typeGraph = .ok graph →
      d.canonicalSpellings = .ok graph.canonical ∧
      (∀ n c, (n, c) ∈ graph.aliases ↔ graph.canonical.get? n = some c ∧ n ≠ c) ∧
      (graph.aliases.map Prod.fst).Sublist d.types.keys ∧ graph.order.Nodup ∧
      ∀ n t, StandsFor d.types n t →
        (∃! m, StandsFor d.types m t ∧ m ∉ graph.aliases.map Prod.fst) ∧
        ∃! decl, decl ∈ graph.order ∧ StandsFor d.types decl.name t := by
  obtain ⟨hn, haliases, -⟩ := hd.consistent
  refine ⟨?_, fun e he ↦ ?_, fun canonical h ↦ ⟨fun n ↦ ?_, fun a ha b hb ↦ ?_, fun n c hget ↦ ?_⟩,
    fun graph h ↦ ⟨(typeGraph_eq_ok h).1, fun n c ↦ mem_aliases_iff h,
      map_fst_aliases_sublist h, nodup_typeOrder hn (typeGraph_eq_ok h).2.1, fun n t ht ↦ ?_⟩⟩
  · rw [Result.exists_eq_error_iff, exists_canonicalSpellings_iff, ← acyclic_aliasOf_iff haliases,
      not_forall_not]
  · obtain ⟨before, n, after, hsplit, hbefore, hfail⟩ := canonicalSpellings_eq_error he
    have hmem : n ∈ d.types.keys := by simp [hsplit]
    obtain ⟨hcycle, hcause⟩ := aliasTarget_eq_error haliases hmem hfail
    refine ⟨before, n, after, hsplit, hcycle, fun m hm ↦ ?_, ?_⟩
    · obtain ⟨b, hb⟩ := hbefore m hm
      exact hb.1.not_leadsToCycle rightUnique_aliasOf
    · obtain hnone | ⟨hsome, chain, rfl⟩ := hcause
      · exact Or.inl hnone
      · exact Or.inr ⟨hsome, _, rfl, rfl⟩
  · exact mem_keys_canonicalSpellings_iff h
  · exact get?_canonicalSpellings_eq_iff h ha hb
  · obtain ⟨t, ht, -⟩ := (get?_canonicalSpellings_iff h).mp hget
    obtain ⟨hstands, hprefers, hself⟩ := canonicalSpellings_idempotent h hget ht
    exact ⟨hself, t, ht, hstands, hprefers⟩
  · exact ⟨existsUnique_notMem_aliases h ht.self, existsUnique_mem_order hn h ht.self⟩

/-- A type that an extension introduces, and its name in the core. -/
def promotedRegistry : Element :=
  ⟨"registry", [], "", [
    ⟨"types", [], "", [
      ⟨"type", [("category", "struct"), ("name", "XrTimeEXT")], "", [], ""⟩,
      ⟨"type", [("category", "struct"), ("name", "XrTime"), ("alias", "XrTimeEXT")], "", [], ""⟩],
      ""⟩,
    ⟨"extensions", [], "", [
      ⟨"extension", [("name", "XR_EXT_time"), ("number", "1")], "", [
        ⟨"require", [], "", [⟨"type", [("name", "XrTimeEXT")], "", [], ""⟩], ""⟩], ""⟩], ""⟩], ""⟩

def promotedDocument : Document where
  tags := []
  types := Table.ofList [
    (some "XrTimeEXT", .struct "XrTimeEXT" [] [] false),
    (some "XrTime", .aliasOf (some "XrTime") "XrTimeEXT" "struct")]
  enums := .empty
  commands := .empty
  commandAliases := .empty
  apiConstants := .empty
  features := []
  extensions := [{
    name := "XR_EXT_time", number := 1, vendorTag := "EXT", version := 0, extType := "",
    promotedTo := none, depends := "", required := { types := ["XrTimeEXT"] } }]
  origins := Table.ofList [(some "XrTimeEXT", "XR_EXT_time")]
  version := "unknown"

set_option maxRecDepth 10000 in
/-- The core name is the spelling of both names. -/
theorem canonicalSpellings_prefer_core :
    promotedDocument.Accepted ∧
      StandsFor promotedDocument.types (some "XrTime") (some "XrTimeEXT") ∧
      promotedDocument.Prefers (some "XrTimeEXT") (some "XrTime") := by
  have haccepted : promotedDocument.Accepted := ⟨promotedRegistry, by with_unfolding_all rfl⟩
  have hstands : StandsFor promotedDocument.types (some "XrTime") (some "XrTimeEXT") :=
    aliasTarget_eq_ok_iff.mp (by with_unfolding_all rfl)
  have hspellings : promotedDocument.canonicalSpellings = .ok (Table.ofList [
      (some "XrTimeEXT", some "XrTime"), (some "XrTime", some "XrTime")]) := by
    with_unfolding_all rfl
  refine ⟨haccepted, hstands, ?_⟩
  obtain ⟨-, t, ht, -, hprefers⟩ := ((canonicalSpellings_prefer haccepted).2.2.1 _ hspellings).2.2
    (some "XrTime") (some "XrTime") (by decide)
  obtain rfl := hstands.unique ht
  exact hprefers

/-- An alias without a name leads to an alias of itself. -/
def namelessRegistry : Element :=
  ⟨"registry", [], "", [⟨"types", [], "", [
    ⟨"type", [("category", "funcpointer"), ("alias", "XrLoop")], "", [], ""⟩,
    ⟨"type", [("category", "struct"), ("name", "XrLoop"), ("alias", "XrLoop")], "", [], ""⟩], ""⟩],
    ""⟩

def namelessDocument : Document where
  tags := []
  types := Table.ofList [
    (none, .aliasOf none "XrLoop" "funcpointer"),
    (some "XrLoop", .aliasOf (some "XrLoop") "XrLoop" "struct")]
  enums := .empty
  commands := .empty
  commandAliases := .empty
  apiConstants := .empty
  features := []
  extensions := []
  origins := .empty
  version := "unknown"

set_option maxRecDepth 10000 in
/-- The cycle is there, but the failure is no rejection. -/
theorem canonicalSpellings_namelessDocument :
    namelessDocument.Accepted ∧
      TransGen (AliasOf namelessDocument.types) (some "XrLoop") (some "XrLoop") ∧
      namelessDocument.canonicalSpellings = .error .namelessCycle := by
  refine ⟨⟨namelessRegistry, rfl⟩, .single ?_, by with_unfolding_all rfl⟩
  exact ⟨.aliasOf (some "XrLoop") "XrLoop" "struct", "XrLoop", rfl, rfl, rfl⟩

end XrBindings
