import XrBindings.Bindings.Context
import XrBindings.Proofs.Registry.References
import XrBindings.Proofs.Rejection
import XrBindings.Proofs.TypeGraph.Spelling

/-!
# Contexts of accepted documents

Deriving what the bindings need from an accepted document fails only if its types have no order, be
it that aliases lead to each other or that structs hold each other. What is derived answers every
question that the bindings ask of it: names that are used are known, aliases have targets, and what
is declared in order is a declaration of the document and no alias.
-/

namespace XrBindings

open Relation

variable {d : Document} {c : Context}

theorem Context.ofDocument_eq_ok (h : Context.ofDocument d = .ok c) :
    c.document = d ∧ d.typeGraph = .ok c.graph ∧ d.partitions = .ok c.partitions := by
  obtain ⟨graph, hgraph, h⟩ := Result.bind_eq_ok_iff.mp h
  obtain ⟨partitions, hpartitions, h⟩ := Result.bind_eq_ok_iff.mp h
  obtain rfl := Result.pure_eq_ok_iff.mp h
  exact ⟨rfl, hgraph, hpartitions⟩

/-- What the bindings look up is there. -/
structure Context.Closed (c : Context) : Prop where
  knows : ∀ n, c.document.Uses n → c.document.Knows n
  aliasTarget_ok :
    ∀ n ∈ c.document.types.keys, ∃ target, aliasTarget c.document.types n = .ok target
  mem_order : ∀ decl ∈ c.graph.order, decl ∈ c.document.types.values ∧ decl.isAlias = false
  enums_named : EnumsNamed c.document.enums
  enum_types : EnumTypesDeclared c.document.types c.document.enums

/-- **What is derived from an accepted document is closed.** -/
theorem Document.Accepted.closed (hd : d.Accepted) (h : Context.ofDocument d = .ok c) :
    c.Closed := by
  obtain ⟨rfl, hgraph, -⟩ := Context.ofDocument_eq_ok h
  obtain ⟨hcanonical, horder, -⟩ := typeGraph_eq_ok hgraph
  exact {
    knows := fun n ↦ hd.knows
    aliasTarget_ok := exists_canonicalSpellings_iff.mp ⟨_, hcanonical⟩
    mem_order := fun decl hdecl ↦ mem_properDeclarations_iff.mp
      ((mem_typeOrder_iff hd.consistent.types_named horder).mp hdecl)
    enums_named := hd.consistent.enums_named
    enum_types := hd.enumTypesDeclared }

/-! ## Types without an order -/

/-- The types of the registry cannot be put in order. -/
def Cyclic (error : GenerationError) : Prop := error.code = .cyclicTypeDependency

theorem rejectsOnly_canonicalSpellings (hd : d.Consistent) :
    RejectsOnly Cyclic d.canonicalSpellings := by
  intro error herror
  obtain ⟨before, n, after, hsplit, -, hfail⟩ := canonicalSpellings_eq_error herror
  -- From a missing name a cycle is reached as well, but this failure is no rejection.
  obtain ⟨-, ⟨-, hnameless⟩ | ⟨-, chain, hchain⟩⟩ :=
    aliasTarget_eq_error hd.aliases_declared (by simp [hsplit]) hfail
  · exact absurd hnameless (by simp)
  · rw [Failure.rejected.inj hchain]
    rfl

/-- With spellings for all names there is no cycle of aliases, and the order fails only if structs
hold each other. -/
theorem rejectsOnly_typeOrder (hd : d.Consistent) {canonical : Table TypeName TypeName}
    (h : d.canonicalSpellings = .ok canonical) : RejectsOnly Cyclic (typeOrder d.types) := by
  have hacyclic : ∀ n, ¬TransGen (AliasOf d.types) n n :=
    (acyclic_aliasOf_iff hd.aliases_declared).mpr (exists_canonicalSpellings_iff.mp ⟨_, h⟩)
  obtain ⟨tasks, htasks⟩ := exists_placementTasks_eq_ok hd.aliases_declared hacyclic
  rw [typeOrder, htasks]
  intro error herror
  obtain ⟨left, -, hleft, -, -⟩ := placeAll_eq_error hd.types_named htasks herror
  rw [Failure.rejected.inj hleft]
  rfl

/-- A value without an integer is no reason to reject the registry. -/
theorem EnumValue.rejectsOnly_integer? (P : GenerationError → Prop) (v : EnumValue) :
    RejectsOnly P v.integer? := by
  rw [EnumValue.integer?]
  split
  · exact .ok _ _
  · split
    · exact .failure (by simp)
    · exact .ok _ _
  · exact .ok _ _

/-- Neither is a walk that does not end. -/
theorem ResultPartition.rejectsOnly_placeAlias (P : GenerationError → Prop) {decl : EnumDecl}
    {errors : List (Option String)} {p : ResultPartition} {v : EnumValue} :
    RejectsOnly P (placeAlias decl errors p v) := by
  refine .bind ?_ fun _ _ ↦ .pure _ _
  rw [walkEnd]
  split
  · exact .ok _ _
  · exact .failure (by simp)

theorem rejectsOnly_partitions (P : GenerationError → Prop) : RejectsOnly P d.partitions := by
  refine .bind (.mapM fun decl _ ↦ .bind ?_ fun _ _ ↦ .pure _ _) fun _ _ ↦ .pure _ _
  refine .bind (.mapM fun v _ ↦ .bind ?_ fun _ _ ↦ .pure _ _) fun _ _ ↦
    .foldlM fun _ _ _ ↦ ResultPartition.rejectsOnly_placeAlias P
  rw [ResultPartition.valueIsError]
  split
  · exact .ok _ _
  · split
    · exact .ok _ _
    · exact .map _ (EnumValue.rejectsOnly_integer? P _)

theorem Document.Accepted.rejectsOnly_ofDocument (hd : d.Accepted) :
    RejectsOnly Cyclic (Context.ofDocument d) := by
  refine .bind ?_ fun _ _ ↦ .bind (rejectsOnly_partitions _) fun _ _ ↦ .pure _ _
  exact .bind (rejectsOnly_canonicalSpellings hd.consistent) fun _ hcanonical ↦
    .bind (rejectsOnly_typeOrder hd.consistent hcanonical) fun _ _ ↦ .pure _ _

end XrBindings
