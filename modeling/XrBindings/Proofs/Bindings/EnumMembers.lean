import XrBindings.Bindings.FlagType
import XrBindings.Proofs.Command.ResultPartition

/-!
# Values of enums in Zig

Every name of an enum has a field that it stands for, with one exception: the chain of an alias may
end at a name that the enum does not have, or not end at all. The values that are no aliases come
first and are all given a field, so an alias whose chain ends at one finds the field there, wherever
the two stand in the enum.

What one value adds is said once, for an enum and for a set of flags. What holds of their layouts
is derived from this step.
-/

namespace XrBindings

/-- The enum has no value of this name, or only another spelling that leads to none of its
values. -/
def EnumDecl.Lacks (decl : EnumDecl) (n : String) : Prop :=
  some n ∉ decl.values.map (·.name) ∨
    ∃ v ∈ decl.values, v.name = some n ∧ v.isAlias = true ∧
      ∀ w ∈ decl.values, w.isAlias = false → ¬EndsAt (ValueAliasOf decl) v.name w.name

namespace EnumMembers

open XrBindings.Naming

variable {r : Renderer} {decl : EnumDecl} {m m' : EnumMembers} {v w : EnumValue} {n last : String}

/-! ## Values that are no aliases -/

theorem candidates_eq_ok {enumName source short long : String} {isBitmask : Bool}
    (h : candidates r enumName v isBitmask = .ok (source, short, long)) :
    v.name = some source ∧ r.render source .snake = .ok long ∧
      short = r.enumValueName enumName source isBitmask := by
  obtain ⟨source', hrequired, h⟩ := Result.bind_eq_ok_iff.mp h
  obtain ⟨long', hlong, h⟩ := Result.bind_eq_ok_iff.mp h
  simp only [Result.pure_eq_ok_iff, Prod.mk.injEq] at h
  obtain ⟨rfl, rfl, rfl⟩ := h
  refine ⟨?_, hlong, rfl⟩
  cases hv : v.name with
  | none => exact absurd hrequired (by simp [hv, Context.required])
  | some n =>
    rw [hv] at hrequired
    rw [Except.ok.inj hrequired]

/-- A value that is no alias has an integer, and this is the one that is used. -/
theorem integer_eq_ok {n : Int} (halias : v.isAlias = false) (h : integer v = .ok n) :
    v.integer? = .ok (some n) := by
  obtain ⟨value, hvalue, h⟩ := Result.bind_eq_ok_iff.mp h
  cases value with
  | some k =>
    obtain rfl := Result.pure_eq_ok_iff.mp h
    exact hvalue
  | none =>
    rw [EnumValue.integer?_eq_ok_none_iff, halias] at hvalue
    exact absurd hvalue Bool.false_ne_true

/-- **What adding a value does.** It takes the next name, as a constant if its integer has a field,
and as a field otherwise. -/
theorem addValue_cases {enumName : String} (h : addValue r enumName m v = .ok m') :
    ∃ source short long value, v.name = some source ∧
      candidates r enumName v false = .ok (source, short, long) ∧ integer v = .ok value ∧
      ((∃ f, m.fields.find? (·.value == value) = some f ∧
        m' = { m with
          constants := m.constants ++ [(uniqueName short long m.used, f.name)]
          tags := m.tags.insert source f.name }) ∨
      m.fields.find? (·.value == value) = none ∧
        m' = { m with
          fields := m.fields ++ [{ name := uniqueName short long m.used, value, source }]
          tags := m.tags.insert source (uniqueName short long m.used) }) := by
  obtain ⟨⟨source, short, long⟩, hcandidates, h⟩ := Result.bind_eq_ok_iff.mp h
  obtain ⟨value, hvalue, h⟩ := Result.bind_eq_ok_iff.mp h
  obtain ⟨hname, -, -⟩ := candidates_eq_ok hcandidates
  refine ⟨source, short, long, value, hname, hcandidates, hvalue, ?_⟩
  split at h
  · next f hf => exact Or.inl ⟨f, hf, (Result.pure_eq_ok_iff.mp h).symm⟩
  · next hnone => exact Or.inr ⟨hnone, (Result.pure_eq_ok_iff.mp h).symm⟩

theorem tags_addValue {enumName : String} (h : addValue r enumName m v = .ok m') :
    ∃ n tag, v.name = some n ∧ m'.tags = m.tags.insert n tag := by
  obtain ⟨source, _, _, _, hname, -, -, ⟨f, -, rfl⟩ | ⟨-, rfl⟩⟩ := addValue_cases h
  · exact ⟨source, _, hname, rfl⟩
  · exact ⟨source, _, hname, rfl⟩

/-- All values that are added have tags, and so has what had one before. -/
theorem mem_keys_foldlM_addValue {enumName : String} {values : List EnumValue}
    (h : values.foldlM (addValue r enumName) m = .ok m') :
    (∀ v ∈ values, ∃ n ∈ m'.tags.keys, v.name = some n) ∧ ∀ n ∈ m.tags.keys, n ∈ m'.tags.keys := by
  induction values generalizing m with
  | nil =>
    rw [List.foldlM_nil, Result.pure_eq_ok_iff] at h
    exact ⟨by simp, fun n hn ↦ h ▸ hn⟩
  | cons v values ih =>
    rw [List.foldlM_cons] at h
    obtain ⟨m₁, hstep, h⟩ := Result.bind_eq_ok_iff.mp h
    obtain ⟨hvalues, hkept⟩ := ih h
    obtain ⟨n, tag, hname, htags⟩ := tags_addValue hstep
    simp only [htags, Table.mem_keys_insert] at hkept
    refine ⟨List.forall_mem_cons.mpr ⟨⟨n, hkept n (Or.inl rfl), hname⟩, hvalues⟩, ?_⟩
    exact fun n' hn' ↦ hkept n' (Or.inr hn')

/-! ## Aliases -/

theorem aliasTerminal?_eq_some (hd : (decl.values.map (·.name)).Nodup) (hw : w ∈ decl.values)
    (hname : w.name = some last) (h : EndsAt (ValueAliasOf decl) v.name w.name) :
    aliasTerminal? decl v = some last := by
  rw [← ResultPartition.step_valueLinks hd, hname] at h
  rw [aliasTerminal?, Chain.follow_eq_arrives_iff.mpr h]
  have hfound : (decl.find? last).isSome = true :=
    List.find?_isSome.mpr ⟨w, hw, by simp [hname]⟩
  obtain ⟨found, hfound⟩ := Option.isSome_iff_exists.mp hfound
  simp [hfound]

theorem mem_keys_addAlias (hn : n ∈ m.tags.keys) : n ∈ (addAlias r decl m v).tags.keys := by
  rw [addAlias]
  split
  · dsimp only
    split <;> exact (Table.mem_keys_insert _).mpr (Or.inr hn)
  · exact hn

theorem mem_keys_addAlias_self (hname : v.name = some n) (hlast : aliasTerminal? decl v = some last)
    (hm : last ∈ m.tags.keys) : n ∈ (addAlias r decl m v).tags.keys := by
  obtain ⟨field, hfield⟩ := m.tags.mem_keys_iff.mp hm
  rw [addAlias, hname, hlast, Option.bind_some, hfield]
  dsimp only
  split <;> exact (Table.mem_keys_insert _).mpr (Or.inl rfl)

theorem mem_keys_foldl_addAlias {aliases : List EnumValue}
    (h : n ∈ m.tags.keys ∨ ∃ v ∈ aliases, v.name = some n ∧
      ∃ last ∈ m.tags.keys, aliasTerminal? decl v = some last) :
    n ∈ (aliases.foldl (addAlias r decl) m).tags.keys := by
  induction aliases generalizing m with
  | nil => simpa using h
  | cons v aliases ih =>
    rw [List.foldl_cons]
    refine ih ?_
    -- A tag that is there stays, so that the aliases may come in any order.
    obtain hn | ⟨v', hv', hname, last, hm, hlast⟩ := h
    · exact Or.inl (mem_keys_addAlias hn)
    · obtain rfl | hv' := List.mem_cons.mp hv'
      · exact Or.inl (mem_keys_addAlias_self hname hlast hm)
      · exact Or.inr ⟨v', hv', hname, last, mem_keys_addAlias hm, hlast⟩

/-- **Every name has a tag** unless the enum lacks it. -/
theorem lacks_of_get?_tags (hd : (decl.values.map (·.name)).Nodup) (h : ofDecl r decl = .ok m)
    (hn : m.tags.get? n = none) : decl.Lacks n := by
  obtain ⟨m₁, hvalues, h⟩ := Result.bind_eq_ok_iff.mp h
  obtain rfl := Result.pure_eq_ok_iff.mp h
  rw [Table.get?_eq_none_iff] at hn
  -- All values that are no aliases have tags before the first alias is looked at.
  have hproper : ∀ w ∈ decl.values, w.isAlias = false → ∃ last ∈ m₁.tags.keys, w.name = some last :=
    fun w hw halias ↦ (mem_keys_foldlM_addValue hvalues).1 w
      (List.mem_filter.mpr ⟨hw, by simp [halias]⟩)
  by_cases hmem : some n ∈ decl.values.map (·.name)
  · obtain ⟨v, hv, hname⟩ := List.mem_map.mp hmem
    cases halias : v.isAlias with
    | false =>
      obtain ⟨n', hn', hname'⟩ := hproper v hv halias
      obtain rfl : n = n' := Option.some.inj (hname.symm.trans hname')
      exact absurd (mem_keys_foldl_addAlias (Or.inl hn')) hn
    | true =>
      refine Or.inr ⟨v, hv, hname, halias, fun w hw hproperw hends ↦ hn ?_⟩
      obtain ⟨last, hlast, hnamew⟩ := hproper w hw hproperw
      exact mem_keys_foldl_addAlias (Or.inr ⟨v, List.mem_filter.mpr ⟨hv, halias⟩, hname, last,
        hlast, aliasTerminal?_eq_some hd hw hnamew hends⟩)
  · exact Or.inl hmem

end EnumMembers

/-! ## Flags and masks -/

/-- **What adding a value to a set of flags does.** It takes the next name, for a flag if it has a
position or its integer is one bit, and for a mask otherwise. -/
theorem FlagLayout.addValue_cases {r : Naming.Renderer} {enumName : String} {l l' : FlagLayout}
    {v : EnumValue} (h : addValue r enumName l v = .ok l') :
    ∃ source short long value,
      EnumMembers.candidates r enumName v true = .ok (source, short, long) ∧
      EnumMembers.integer v = .ok value ∧
      ((∃ p, (v.bit?.map (·.toNat)).or (singleBit? value) = some p ∧
        l' = { l with bits := l.bits ++ [(Naming.uniqueName short long l.used, p)] }) ∨
      singleBit? value = none ∧ 0 ≤ l.width ∧
        l' = { l with
          masks := l.masks ++ [(Naming.uniqueName short long l.used, l.truncate value)] }) := by
  obtain ⟨⟨source, short, long⟩, hcandidates, h⟩ := Result.bind_eq_ok_iff.mp h
  obtain ⟨value, hvalue, h⟩ := Result.bind_eq_ok_iff.mp h
  refine ⟨source, short, long, value, hcandidates, hvalue, ?_⟩
  split at h
  · next hbit => exact Or.inl ⟨_, by rw [hbit]; rfl, (Result.pure_eq_ok_iff.mp h).symm⟩
  · next hbit hsingle =>
    exact Or.inl ⟨_, by rw [hbit, hsingle]; rfl, (Result.pure_eq_ok_iff.mp h).symm⟩
  · next hsingle =>
    split at h
    · cases h
    · next hwidth =>
      exact Or.inr ⟨hsingle, not_lt.mp hwidth, (Result.pure_eq_ok_iff.mp h).symm⟩

/-- A set of flags is laid out from an enum, or no bit of it has a name. -/
theorem Context.flagLayout_cases {c : Context} {name : String} {bits : Option String} {width : Int}
    {l : FlagLayout} (h : c.flagLayout name bits width = .ok l) :
    l = { name, width } ∨ ∃ decl, FlagLayout.ofEnum c.renderer name width decl = .ok l := by
  rw [flagLayout] at h
  split at h
  · exact Or.inl (Except.ok.inj h).symm
  · exact Or.inr ⟨_, h⟩

/-- An enum that is found names the bits, but an empty name is taken for none. -/
theorem Context.flagLayout_of_get? {c : Context} {block : String} {decl : EnumDecl}
    (hdecl : c.document.enums.get? block = some decl) (name : String) (width : Int) :
    c.flagLayout name (some block) width =
      if block = "" then .ok { name, width } else FlagLayout.ofEnum c.renderer name width decl := by
  rw [flagLayout]
  by_cases hblock : block = ""
  · rw [if_pos hblock, hblock]
    rfl
  · have hkept : (some block).filter (fun b ↦ !b.isEmpty) = some block := by
      simp [Option.filter, hblock]
    rw [if_neg hblock, hkept, Option.bind_some, hdecl]

/-- A context in which nothing is declared but an enum. -/
def EnumDecl.context (decl : EnumDecl) : Context where
  document := {
    tags := []
    types := .empty
    enums := Table.ofList [(decl.name, decl)]
    commands := .empty
    commandAliases := .empty
    apiConstants := .empty
    features := []
    extensions := []
    origins := .empty
    version := "unknown" }
  graph := { order := [], canonical := .empty, aliases := [] }
  renderer := ⟨[]⟩
  partitions := .empty
  flagOwners := .empty

theorem EnumDecl.get?_context (decl : EnumDecl) :
    decl.context.document.enums.get? decl.name = some decl :=
  Table.get?_insert_self .empty decl.name decl

end XrBindings
