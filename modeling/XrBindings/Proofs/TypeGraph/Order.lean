import Mathlib.Tactic.Common
import XrBindings.Proofs.Distinct
import XrBindings.Proofs.TypeGraph.Alias
import XrBindings.Proofs.TypeGraph.Placement
import XrBindings.TypeGraph.Order

/-!
# The order of the declarations

A declaration holds another by value if one of its fields, which is no pointer, has a type that
stands for it. The order is found for names, with counters and a queue; here it is described by
this relation between declarations alone. There is an order exactly if nothing holds itself by
value, whether directly or through other declarations. The order is determined by the relation and
the document: at each place stands the first declaration of the document that may stand there.
-/

namespace XrBindings

open Placement (Needs Reordered WellFormed names)
open Relation XrBindings.Text XrBindings.Xml

variable {types : Table TypeName TypeDecl} {tasks : List (Placement.Task TypeName)}
  {order : List TypeDecl} {decl inner outer : TypeDecl} {a b : TypeName}

/-- A declaration holds another one by value. -/
def HoldsByValue (types : Table TypeName TypeDecl) (outer inner : TypeDecl) : Prop :=
  outer ∈ types.values ∧ inner ∈ types.values ∧
    ∃ f ∈ outer.layoutFields, f.pointers = [] ∧ StandsFor types (some f.typeName) inner.name

/-- The declarations that are no aliases, in document order. -/
def properDeclarations (types : Table TypeName TypeDecl) : List TypeDecl :=
  types.values.filter fun decl ↦ !decl.isAlias

theorem mem_properDeclarations_iff :
    decl ∈ properDeclarations types ↔ decl ∈ types.values ∧ decl.isAlias = false := by
  rw [properDeclarations, List.mem_filter, Bool.not_eq_true']

theorem isAlias_eq_false_of_mem_layoutFields {f : Field} (hf : f ∈ decl.layoutFields) :
    decl.isAlias = false := by
  cases decl with
  | aliasOf name target category => exact absurd hf (by simp [TypeDecl.layoutFields])
  | _ => rfl

/-- Only an alias may be without a name. -/
theorem some_nameText_name (h : decl.isAlias = false) : some (nameText decl.name) = decl.name := by
  cases decl with
  | aliasOf name target category =>
    exact absurd h (by simp [TypeDecl.isAlias, TypeDecl.aliasTarget?])
  | _ => rfl

theorem HoldsByValue.mem_left (h : HoldsByValue types outer inner) :
    outer ∈ properDeclarations types := by
  obtain ⟨houter, -, f, hf, -⟩ := h
  exact mem_properDeclarations_iff.mpr ⟨houter, isAlias_eq_false_of_mem_layoutFields hf⟩

theorem HoldsByValue.mem_right (hn : TypesNamed types) (h : HoldsByValue types outer inner) :
    inner ∈ properDeclarations types := by
  obtain ⟨-, hinner, f, -, -, hstands⟩ := h
  exact mem_properDeclarations_iff.mpr ⟨hinner, hstands.isAlias_eq_false (hn.get?_name hinner)⟩

theorem LeadsToCycle.mem_properDeclarations (h : LeadsToCycle (HoldsByValue types) decl) :
    decl ∈ properDeclarations types := by
  obtain ⟨inner, hinner, -⟩ := h.exists_succ
  exact hinner.mem_left

/-! ## Tasks -/

theorem valueDependencies_spec {needs : List TypeName}
    (h : valueDependencies types decl = .ok needs) :
    needs.Nodup ∧ ∀ b, b ∈ needs ↔
      ∃ f ∈ decl.layoutFields, f.pointers = [] ∧ StandsFor types (some f.typeName) b := by
  obtain ⟨targets, htargets, h⟩ := Result.bind_eq_ok_iff.mp h
  obtain rfl := Result.pure_eq_ok_iff.mp h
  refine ⟨nodup_eraseDups targets, fun b ↦ ?_⟩
  simp only [List.mem_eraseDups, Result.mem_of_mapM htargets, aliasTarget_eq_ok_iff,
    List.mem_filter, Bool.and_eq_true, List.isEmpty_iff, Table.contains_iff]
  constructor
  · rintro ⟨f, ⟨hf, hpointers, -⟩, hstands⟩
    exact ⟨f, hf, hpointers, hstands⟩
  · rintro ⟨f, hf, hpointers, hstands⟩
    exact ⟨f, ⟨hf, hpointers, hstands.mem_keys⟩, hstands⟩

theorem exists_valueDependencies_eq_ok (hd : AliasesDeclared types)
    (hacyclic : ∀ n, ¬TransGen (AliasOf types) n n) (decl : TypeDecl) :
    ∃ needs, valueDependencies types decl = .ok needs := by
  have hsteps : ∀ f ∈ decl.layoutFields.filter fun f ↦
      f.pointers.isEmpty && types.contains (some f.typeName),
      ∃ target, aliasTarget types (some f.typeName) = .ok target := by
    intro f hf
    rw [List.mem_filter, Bool.and_eq_true, Table.contains_iff] at hf
    exact (acyclic_aliasOf_iff hd).mp hacyclic _ hf.2.2
  obtain ⟨targets, htargets⟩ := Result.exists_mapM_eq_ok hsteps
  exact ⟨targets.eraseDups, Result.bind_eq_ok_iff.mpr ⟨targets, htargets, rfl⟩⟩

theorem exists_placementTasks_eq_ok (hd : AliasesDeclared types)
    (hacyclic : ∀ n, ¬TransGen (AliasOf types) n n) :
    ∃ tasks, placementTasks types = .ok tasks :=
  Result.exists_mapM_bind_eq_ok fun e _ ↦ exists_valueDependencies_eq_ok hd hacyclic e.2

/-- There is a task for each declaration that is no alias, and it needs what that holds. -/
theorem mem_placementTasks_iff (h : placementTasks types = .ok tasks)
    {t : Placement.Task TypeName} :
    t ∈ tasks ↔ ∃ decl, types.get? t.name = some decl ∧ decl.isAlias = false ∧
      valueDependencies types decl = .ok t.needs := by
  simp only [Result.mem_of_mapM_bind h, List.mem_filter, Bool.not_eq_true', Table.get?_eq_some_iff]
  constructor
  · rintro ⟨⟨name, decl⟩, ⟨hmem, halias⟩, needs, hneeds, rfl⟩
    exact ⟨decl, hmem, halias, hneeds⟩
  · rintro ⟨decl, hmem, halias, hneeds⟩
    exact ⟨(t.name, decl), ⟨hmem, halias⟩, t.needs, hneeds, rfl⟩

theorem names_placementTasks (hn : TypesNamed types) (h : placementTasks types = .ok tasks) :
    names tasks = (properDeclarations types).map (·.name) := by
  have hkeys : names tasks = (types.entries.filter fun e ↦ !e.2.isAlias).map Prod.fst :=
    Result.map_eq_of_mapM_bind h fun _ _ ↦ rfl
  have hvalues : properDeclarations types
      = (types.entries.filter fun e ↦ !e.2.isAlias).map Prod.snd := by
    rw [properDeclarations, Table.values, List.filter_map]
    rfl
  rw [hkeys, hvalues, List.map_map]
  refine List.map_congr_left fun e he ↦ (hn e.1 e.2 ?_).symm
  exact types.get?_eq_some_iff.mpr (List.mem_of_mem_filter he)

theorem needs_placementTasks_iff (h : placementTasks types = .ok tasks) :
    Needs tasks a b ↔ ∃ decl, types.get? a = some decl ∧
      ∃ f ∈ decl.layoutFields, f.pointers = [] ∧ StandsFor types (some f.typeName) b := by
  constructor
  · rintro ⟨t, ht, rfl, hb⟩
    obtain ⟨decl, hdecl, -, hneeds⟩ := (mem_placementTasks_iff h).mp ht
    exact ⟨decl, hdecl, ((valueDependencies_spec hneeds).2 b).mp hb⟩
  · rintro ⟨decl, hdecl, f, hf, hpointers, hstands⟩
    have hentry : (a, decl) ∈ types.entries.filter fun e ↦ !e.2.isAlias := by
      rw [List.mem_filter, isAlias_eq_false_of_mem_layoutFields hf]
      exact ⟨types.get?_eq_some_iff.mp hdecl, rfl⟩
    obtain ⟨needs, hneeds, htask⟩ := Result.exists_of_mapM_bind h hentry
    exact ⟨_, htask, rfl, ((valueDependencies_spec hneeds).2 b).mpr ⟨f, hf, hpointers, hstands⟩⟩

theorem exists_holdsByValue_of_needs (hn : TypesNamed types) (h : placementTasks types = .ok tasks)
    (hab : Needs tasks a b) :
    ∃ outer inner, outer.name = a ∧ inner.name = b ∧ HoldsByValue types outer inner := by
  obtain ⟨outer, houter, f, hf, hpointers, hstands⟩ := (needs_placementTasks_iff h).mp hab
  obtain ⟨inner, hinner⟩ := types.mem_keys_iff.mp hstands.2
  obtain rfl := hn a outer houter
  obtain rfl := hn b inner hinner
  exact ⟨outer, inner, rfl, rfl, types.mem_values_iff.mpr ⟨_, houter⟩,
    types.mem_values_iff.mpr ⟨_, hinner⟩, f, hf, hpointers, hstands⟩

theorem wellFormed_placementTasks (hn : TypesNamed types) (h : placementTasks types = .ok tasks) :
    WellFormed (types.keys.idxOf ·) tasks where
  pairwise := by
    rw [names_placementTasks hn h]
    refine (pairwise_idxOf_lt types.nodup_keys).sublist ?_
    have hsub : ((properDeclarations types).map (·.name)).Sublist (types.values.map (·.name)) :=
      List.filter_sublist.map _
    rwa [hn.map_name_values] at hsub
  nodup_needs t ht := by
    obtain ⟨decl, -, -, hneeds⟩ := (mem_placementTasks_iff h).mp ht
    exact (valueDependencies_spec hneeds).1
  closed a b hab := by
    obtain ⟨outer, inner, -, rfl, hholds⟩ := exists_holdsByValue_of_needs hn h hab
    rw [names_placementTasks hn h]
    exact List.mem_map_of_mem (hholds.mem_right hn)

theorem needs_name_iff (hn : TypesNamed types) (h : placementTasks types = .ok tasks)
    (houter : outer ∈ types.values) (hinner : inner ∈ types.values) :
    Needs tasks outer.name inner.name ↔ HoldsByValue types outer inner := by
  rw [needs_placementTasks_iff h, HoldsByValue, hn.get?_name houter]
  simp only [Option.some.injEq, exists_eq_left', houter, hinner, true_and]

theorem leadsToCycle_name_iff (hn : TypesNamed types) (h : placementTasks types = .ok tasks)
    (hdecl : decl ∈ types.values) :
    LeadsToCycle (Needs tasks) decl.name ↔ LeadsToCycle (HoldsByValue types) decl := by
  constructor
  · intro hcycle
    -- Names that need something are declared, so reading them as declarations keeps the relation.
    have hlift := hcycle.lift (p := HoldsByValue types) (fun n ↦ (types.get? n).getD decl) ?_
    · rwa [hn.get?_name hdecl, Option.getD_some] at hlift
    · intro a b hab
      obtain ⟨outer, inner, rfl, rfl, hholds⟩ := exists_holdsByValue_of_needs hn h hab
      rwa [hn.get?_name hholds.1, hn.get?_name hholds.2.1, Option.getD_some, Option.getD_some]
  · intro hcycle
    exact hcycle.lift (·.name) fun outer inner hholds ↦
      (needs_name_iff hn h hholds.1 hholds.2.1).mpr hholds

/-! ## From names to declarations -/

/-- A declaration may stand after `before`: it is no alias, it does not stand there yet, and what it
holds by value does. -/
def Placeable (types : Table TypeName TypeDecl) (before : List TypeDecl) (decl : TypeDecl) : Prop :=
  decl ∈ properDeclarations types ∧ decl ∉ before ∧
    ∀ inner, HoldsByValue types decl inner → inner ∈ before

theorem name_mem_map_iff (hn : TypesNamed types) {decls : List TypeDecl}
    (hdecls : ∀ decl ∈ decls, decl ∈ types.values) (hdecl : decl ∈ types.values) :
    decl.name ∈ decls.map (·.name) ↔ decl ∈ decls := by
  refine ⟨fun hmem ↦ ?_, fun hmem ↦ List.mem_map_of_mem hmem⟩
  obtain ⟨decl', hmem, hname⟩ := List.mem_map.mp hmem
  rwa [hn.eq_of_name hdecl (hdecls decl' hmem) hname.symm]

theorem ready_name_iff (hn : TypesNamed types) (h : placementTasks types = .ok tasks)
    {before : List TypeDecl} (hbefore : ∀ decl ∈ before, decl ∈ types.values)
    (hdecl : decl ∈ types.values) :
    Placement.Ready tasks (before.map (·.name)) decl.name ↔ Placeable types before decl := by
  have hproper : ∀ decl ∈ properDeclarations types, decl ∈ types.values :=
    fun decl hmem ↦ (mem_properDeclarations_iff.mp hmem).1
  rw [Placement.Ready, Placeable, names_placementTasks hn h, name_mem_map_iff hn hproper hdecl,
    name_mem_map_iff hn hbefore hdecl]
  refine and_congr_right fun _ ↦ and_congr_right fun _ ↦ ?_
  constructor
  · intro hneeds inner hholds
    have hname := hneeds inner.name ((needs_name_iff hn h hdecl hholds.2.1).mpr hholds)
    exact (name_mem_map_iff hn hbefore hholds.2.1).mp hname
  · intro hholds b hb
    obtain ⟨outer, inner, hname, rfl, hheld⟩ := exists_holdsByValue_of_needs hn h hb
    obtain rfl := hn.eq_of_name hheld.1 hdecl hname
    exact List.mem_map_of_mem (hholds inner hheld)

/-- What is put in order is the order of the names, read as declarations. -/
theorem placeAll_eq_ok (hn : TypesNamed types) (h : placementTasks types = .ok tasks)
    (horder : placeAll types tasks = .ok order) :
    (∀ decl ∈ order, decl ∈ types.values) ∧
      order.map (·.name) = Placement.order (types.keys.idxOf ·) tasks ∧
      ∀ decl ∈ properDeclarations types, decl ∈ order := by
  have hw := wellFormed_placementTasks hn h
  rw [placeAll] at horder
  split at horder
  · next hlength =>
    obtain rfl := Except.ok.inj horder
    have hplaced := (Placement.length_order_eq_iff hw).mp (beq_iff_eq.mp hlength)
    have hkeys : ∀ n ∈ Placement.order (types.keys.idxOf ·) tasks, n ∈ types.keys := by
      intro n hmem
      have hname := ((Placement.greedy_order hw).of_mem hmem).1
      rw [names_placementTasks hn h, List.mem_map] at hname
      obtain ⟨decl, hdecl, rfl⟩ := hname
      exact hn.mem_keys (mem_properDeclarations_iff.mp hdecl).1
    have hvalues : ∀ decl ∈ (Placement.order (types.keys.idxOf ·) tasks).filterMap types.get?,
        decl ∈ types.values := by
      intro decl hdecl
      obtain ⟨n, -, hget⟩ := List.mem_filterMap.mp hdecl
      exact types.mem_values_iff.mpr ⟨n, hget⟩
    refine ⟨hvalues, hn.map_name_filterMap_get? hkeys, fun decl hdecl ↦ ?_⟩
    rw [List.mem_filterMap]
    refine ⟨decl.name, hplaced _ ?_, hn.get?_name (mem_properDeclarations_iff.mp hdecl).1⟩
    rw [names_placementTasks hn h]
    exact List.mem_map_of_mem hdecl
  · exact absurd horder Result.reject_ne_ok

theorem notMem_order_name_iff (hn : TypesNamed types) (h : placementTasks types = .ok tasks)
    (hdecl : decl ∈ properDeclarations types) :
    decl.name ∉ Placement.order (types.keys.idxOf ·) tasks
      ↔ LeadsToCycle (HoldsByValue types) decl := by
  have hname : decl.name ∈ names tasks := by
    rw [names_placementTasks hn h]
    exact List.mem_map_of_mem hdecl
  rw [Placement.notMem_order_iff (wellFormed_placementTasks hn h) hname,
    leadsToCycle_name_iff hn h (mem_properDeclarations_iff.mp hdecl).1]

theorem placeAll_eq_error (hn : TypesNamed types) (h : placementTasks types = .ok tasks)
    {e : Failure} (horder : placeAll types tasks = .error e) :
    ∃ left : List TypeDecl, left ≠ [] ∧
      e = .rejected (.dependencyCycle (left.map fun decl ↦ nameText decl.name)) ∧
      left.Sublist (properDeclarations types) ∧
      ∀ decl, decl ∈ left ↔ LeadsToCycle (HoldsByValue types) decl := by
  have hw := wellFormed_placementTasks hn h
  have hnames : tasks.map (·.name) = (properDeclarations types).map (·.name) :=
    names_placementTasks hn h
  rw [placeAll] at horder
  split at horder
  · exact absurd horder (by simp)
  · next hlength =>
    simp only [hnames, List.filter_map, List.map_map, reject] at horder
    have hmem : ∀ decl, decl ∈ (properDeclarations types).filter
        (fun decl ↦ !(Placement.order (types.keys.idxOf ·) tasks).contains decl.name)
          ↔ LeadsToCycle (HoldsByValue types) decl := by
      intro decl
      rw [List.mem_filter, Bool.not_eq_true', ← Bool.not_eq_true, List.contains_iff_mem]
      constructor
      · rintro ⟨hdecl, hnot⟩
        exact (notMem_order_name_iff hn h hdecl).mp hnot
      · intro hcycle
        have hdecl := hcycle.mem_properDeclarations
        exact ⟨hdecl, (notMem_order_name_iff hn h hdecl).mpr hcycle⟩
    refine ⟨_, fun hnil ↦ ?_, (Except.error.inj horder).symm, List.filter_sublist, hmem⟩
    -- If nothing were left, as many names as there are tasks would be placed.
    refine hlength (beq_iff_eq.mpr ((Placement.length_order_eq_iff hw).mpr fun a ha ↦ ?_))
    rw [names_placementTasks hn h, List.mem_map] at ha
    obtain ⟨decl, hdecl, rfl⟩ := ha
    by_contra hnot
    have hleft := (hmem decl).mpr ((notMem_order_name_iff hn h hdecl).mp hnot)
    exact List.not_mem_nil (hnil ▸ hleft)

/-- The order in which dependencies are listed does not matter. -/
theorem placeAll_eq_of_reordered (hn : TypesNamed types) (h : placementTasks types = .ok tasks)
    {tasks' : List (Placement.Task TypeName)} (hre : Reordered tasks tasks') :
    placeAll types tasks' = placeAll types tasks := by
  have horder := Placement.order_eq_of_reordered (wellFormed_placementTasks hn h) hre
  have hnames : tasks'.map (·.name) = tasks.map (·.name) := hre.names_eq
  rw [placeAll, placeAll, horder, hnames, hre.length_eq]

theorem typeOrder_eq_ok_iff :
    typeOrder types = .ok order
      ↔ ∃ tasks, placementTasks types = .ok tasks ∧ placeAll types tasks = .ok order :=
  Result.bind_eq_ok_iff

/-! ## The order -/

theorem typeOrder_next (hn : TypesNamed types) (h : typeOrder types = .ok order)
    {before after : List TypeDecl} (hsplit : order = before ++ decl :: after) :
    Placeable types before decl ∧ ∀ other, Placeable types before other →
      types.keys.idxOf decl.name ≤ types.keys.idxOf other.name := by
  obtain ⟨tasks, htasks, hplace⟩ := typeOrder_eq_ok_iff.mp h
  obtain ⟨hvalues, hnames, -⟩ := placeAll_eq_ok hn htasks hplace
  have hw := wellFormed_placementTasks hn htasks
  have hgreedy := Placement.greedy_order hw
  subst hsplit
  rw [List.forall_mem_append, List.forall_mem_cons] at hvalues
  rw [← hnames, List.map_append, List.map_cons] at hgreedy
  obtain ⟨hready, hfirst⟩ := hgreedy _ _ _ rfl
  refine ⟨(ready_name_iff hn htasks hvalues.1 hvalues.2.1).mp hready, fun other hother ↦ ?_⟩
  have hvalue := (mem_properDeclarations_iff.mp hother.1).1
  exact hfirst other.name ((ready_name_iff hn htasks hvalues.1 hvalue).mpr hother)

theorem mem_typeOrder_iff (hn : TypesNamed types) (h : typeOrder types = .ok order) :
    decl ∈ order ↔ decl ∈ properDeclarations types := by
  refine ⟨fun hmem ↦ ?_, fun hmem ↦ ?_⟩
  · obtain ⟨before, after, hsplit⟩ := List.append_of_mem hmem
    exact (typeOrder_next hn h hsplit).1.1
  · obtain ⟨tasks, htasks, hplace⟩ := typeOrder_eq_ok_iff.mp h
    exact (placeAll_eq_ok hn htasks hplace).2.2 decl hmem

theorem not_leadsToCycle_of_typeOrder (hn : TypesNamed types) (h : typeOrder types = .ok order)
    (decl : TypeDecl) : ¬LeadsToCycle (HoldsByValue types) decl := by
  obtain ⟨tasks, htasks, hplace⟩ := typeOrder_eq_ok_iff.mp h
  obtain ⟨-, hnames, hall⟩ := placeAll_eq_ok hn htasks hplace
  intro hcycle
  have hproper := hcycle.mem_properDeclarations
  refine (notMem_order_name_iff hn htasks hproper).mpr hcycle ?_
  rw [← hnames]
  exact List.mem_map_of_mem (hall decl hproper)

theorem nodup_typeOrder (hn : TypesNamed types) (h : typeOrder types = .ok order) :
    order.Nodup := by
  obtain ⟨tasks, htasks, hplace⟩ := typeOrder_eq_ok_iff.mp h
  have hgreedy := Placement.greedy_order (wellFormed_placementTasks hn htasks)
  rw [← (placeAll_eq_ok hn htasks hplace).2.1] at hgreedy
  exact List.Nodup.of_map _ hgreedy.nodup

/-- The order is that of the document if this puts dependencies first. -/
theorem typeOrder_eq_properDeclarations (hn : TypesNamed types) (h : typeOrder types = .ok order)
    (hfirst : ∀ before decl after, properDeclarations types = before ++ decl :: after →
      ∀ inner, HoldsByValue types decl inner → inner ∈ before) :
    order = properDeclarations types := by
  obtain ⟨tasks, htasks, hplace⟩ := typeOrder_eq_ok_iff.mp h
  obtain ⟨hvalues, hnames, -⟩ := placeAll_eq_ok hn htasks hplace
  have hw := wellFormed_placementTasks hn htasks
  have hproper : ∀ decl ∈ properDeclarations types, decl ∈ types.values :=
    fun decl hdecl ↦ (mem_properDeclarations_iff.mp hdecl).1
  -- There is only one greedy order of all names, and the document order is one.
  have hgreedy : Placement.Greedy (types.keys.idxOf ·) tasks (names tasks) := by
    refine Placement.greedy_names hw fun before a after hsplit b hab ↦ ?_
    rw [names_placementTasks hn htasks] at hsplit
    obtain ⟨before', rest, hsplit', rfl, hrest⟩ := List.map_eq_append_iff.mp hsplit
    obtain ⟨decl, after', rfl, rfl, -⟩ := List.map_eq_cons_iff.mp hrest
    obtain ⟨outer, inner, hname, rfl, hholds⟩ := exists_holdsByValue_of_needs hn htasks hab
    have hdecl : decl ∈ types.values := hproper decl (by simp [hsplit'])
    obtain rfl := hn.eq_of_name hholds.1 hdecl hname
    exact List.mem_map_of_mem (hfirst before' outer after' hsplit' inner hholds)
  have hall := Placement.order_eq_of_greedy hw hgreedy fun a ha ↦ ha.2.1 ha.1
  rw [hall, names_placementTasks hn htasks] at hnames
  rw [← hn.filterMap_get?_map_name hvalues, hnames, hn.filterMap_get?_map_name hproper]

/-- **Dependencies first.** If the aliases of an accepted document have no cycle, its declarations
can be put in order exactly if nothing holds itself by value. The order holds each declaration that
is no alias once, after all that it holds by value. If there is no order, the message names, in
document order, the declarations from which a cycle can be reached. -/
theorem typeOrder_dependencies {d : Document} (hd : d.Accepted)
    (hacyclic : ∀ n, ¬TransGen (AliasOf d.types) n n) :
    ((∃ order, typeOrder d.types = .ok order) ↔
      ∀ decl, ¬TransGen (HoldsByValue d.types) decl decl) ∧
    (∀ order, typeOrder d.types = .ok order →
      order.Nodup ∧ (∀ decl, decl ∈ order ↔ decl ∈ d.types.values ∧ decl.isAlias = false) ∧
      ∀ before decl after, order = before ++ decl :: after →
        ∀ inner, HoldsByValue d.types decl inner → inner ∈ before) ∧
    ∀ e, typeOrder d.types = .error e → ∃ error names, ∃ left : List TypeDecl,
      e = .rejected error ∧ error.code = .cyclicTypeDependency ∧
      error.message = "By-value dependency cycle between: " ++ joinWith ", " names ∧
      names.map some = left.map (·.name) ∧ left.Sublist d.types.values ∧
      ∀ decl, decl ∈ left ↔ LeadsToCycle (HoldsByValue d.types) decl := by
  obtain ⟨hn, haliases, -⟩ := hd.consistent
  obtain ⟨tasks, htasks⟩ := exists_placementTasks_eq_ok haliases hacyclic
  have hplace : typeOrder d.types = placeAll d.types tasks := by
    rw [typeOrder, htasks]
    rfl
  refine ⟨⟨?_, fun hnone ↦ ?_⟩, fun order h ↦ ?_, fun e h ↦ ?_⟩
  · rintro ⟨order, h⟩ decl hcycle
    exact not_leadsToCycle_of_typeOrder hn h decl ⟨decl, .refl, hcycle⟩
  · cases h : typeOrder d.types with
    | ok order => exact ⟨order, rfl⟩
    | error e =>
      obtain ⟨left, hne, -, -, hleft⟩ := placeAll_eq_error hn htasks (hplace ▸ h)
      obtain ⟨decl, hdecl⟩ := List.exists_mem_of_ne_nil left hne
      exact absurd ((hleft decl).mp hdecl) (not_leadsToCycle_of_acyclic hnone decl)
  · refine ⟨nodup_typeOrder hn h, fun decl ↦ ?_, fun before decl after hsplit ↦ ?_⟩
    · exact (mem_typeOrder_iff hn h).trans mem_properDeclarations_iff
    · exact (typeOrder_next hn h hsplit).1.2.2
  · obtain ⟨left, -, rfl, hsub, hleft⟩ := placeAll_eq_error hn htasks (hplace ▸ h)
    refine ⟨_, _, left, rfl, rfl, rfl, ?_, hsub.trans List.filter_sublist, hleft⟩
    rw [List.map_map]
    refine List.map_congr_left fun decl hdecl ↦ some_nameText_name ?_
    exact (mem_properDeclarations_iff.mp (hsub.subset hdecl)).2

/-- A struct that holds a type by another spelling, and the document declares this type last. -/
def frameRegistry : Element :=
  ⟨"registry", [], "", [⟨"types", [], "", [
    ⟨"type", [("category", "struct"), ("name", "XrFrame")], "", [
      ⟨"member", [], "", [⟨"type", [], "XrTick", [], ""⟩, ⟨"name", [], "tick", [], ""⟩], ""⟩], ""⟩,
    ⟨"type", [("category", "struct"), ("name", "XrTick"), ("alias", "XrTime")], "", [], ""⟩,
    ⟨"type", [("category", "struct"), ("name", "XrTime")], "", [], ""⟩], ""⟩], ""⟩

def frameDocument : Document where
  tags := []
  types := Table.ofList [
    (some "XrFrame", .struct "XrFrame" [{ name := "tick", typeName := "XrTick" }] [] false),
    (some "XrTick", .aliasOf (some "XrTick") "XrTime" "struct"),
    (some "XrTime", .struct "XrTime" [] [] false)]
  enums := .empty
  commands := .empty
  commandAliases := .empty
  apiConstants := .empty
  features := []
  extensions := []
  origins := .empty
  version := "unknown"

set_option maxRecDepth 10000 in
theorem frameDocument_accepted : frameDocument.Accepted := ⟨frameRegistry, rfl⟩

theorem acyclic_frameDocument (n : TypeName) : ¬TransGen (AliasOf frameDocument.types) n n := by
  refine (acyclic_aliasOf_iff frameDocument_accepted.consistent.aliases_declared).mpr ?_ n
  intro a ha
  have hkeys : a ∈ [some "XrFrame", some "XrTick", some "XrTime"] := ha
  simp only [List.mem_cons, List.not_mem_nil, or_false] at hkeys
  obtain rfl | rfl | rfl := hkeys
  · exact ⟨some "XrFrame", by with_unfolding_all rfl⟩
  · exact ⟨some "XrTime", by with_unfolding_all rfl⟩
  · exact ⟨some "XrTime", by with_unfolding_all rfl⟩

/-- The frame holds the time, and nothing holds itself: there is an order. -/
theorem typeOrder_dependencies_frame :
    frameDocument.Accepted ∧ (∀ n, ¬TransGen (AliasOf frameDocument.types) n n) ∧
      ∀ decl, ¬TransGen (HoldsByValue frameDocument.types) decl decl := by
  refine ⟨frameDocument_accepted, acyclic_frameDocument, ?_⟩
  refine (typeOrder_dependencies frameDocument_accepted acyclic_frameDocument).1.mp ⟨[
    .struct "XrTime" [] [] false,
    .struct "XrFrame" [{ name := "tick", typeName := "XrTick" }] [] false], ?_⟩
  with_unfolding_all rfl

/-- **The order of the document, as far as dependencies allow.** At each place of the order stands
the first declaration of the document among those that may stand there. So the order does not
depend on the order in which dependencies are met, and it is the order of the document itself if
that puts dependencies first. -/
theorem typeOrder_first {d : Document} (hd : d.Accepted) {order : List TypeDecl}
    (h : typeOrder d.types = .ok order) :
    (∀ k decl, order[k]? = some decl →
      Placeable d.types (order.take k) decl ∧ ∀ other, Placeable d.types (order.take k) other →
        d.types.keys.idxOf decl.name ≤ d.types.keys.idxOf other.name) ∧
    (∀ tasks tasks', placementTasks d.types = .ok tasks → Reordered tasks tasks' →
      placeAll d.types tasks' = .ok order) ∧
    ((∀ before decl after, properDeclarations d.types = before ++ decl :: after →
        ∀ inner, HoldsByValue d.types decl inner → inner ∈ before) →
      order = properDeclarations d.types) := by
  have hn := hd.consistent.types_named
  refine ⟨fun k decl hk ↦ ?_, fun tasks tasks' htasks hre ↦ ?_,
    typeOrder_eq_properDeclarations hn h⟩
  · obtain ⟨hlt, rfl⟩ := List.getElem?_eq_some_iff.mp hk
    have hsplit : order = order.take k ++ order[k] :: order.drop (k + 1) := by
      rw [List.getElem_cons_drop, List.take_append_drop]
    exact typeOrder_next hn h hsplit
  · obtain ⟨tasks₀, htasks₀, hplace⟩ := typeOrder_eq_ok_iff.mp h
    rw [htasks, Except.ok.injEq] at htasks₀
    subst htasks₀
    rw [placeAll_eq_of_reordered hn htasks hre, hplace]

/-- The time comes first, although the document declares it last. -/
theorem typeOrder_first_frame :
    typeOrder frameDocument.types = .ok [
      .struct "XrTime" [] [] false,
      .struct "XrFrame" [{ name := "tick", typeName := "XrTick" }] [] false] ∧
    Placeable frameDocument.types [] (.struct "XrTime" [] [] false) ∧
    ¬Placeable frameDocument.types [] (.struct "XrFrame" [{ name := "tick", typeName := "XrTick" }]
      [] false) := by
  have horder : typeOrder frameDocument.types = .ok [
      .struct "XrTime" [] [] false,
      .struct "XrFrame" [{ name := "tick", typeName := "XrTick" }] [] false] := by
    with_unfolding_all rfl
  obtain ⟨htime, hfirst⟩ := (typeOrder_first frameDocument_accepted horder).1 0 _ rfl
  refine ⟨horder, htime, fun hframe ↦ ?_⟩
  exact absurd (hfirst _ hframe) (by decide)

end XrBindings
