import XrBindings.Proofs.Bindings.EnumMembers
import XrBindings.Proofs.Command.ResultCodes
import XrBindings.Proofs.Naming.Unique

/-!
# Fields for the integers of an enum

An enum in Zig has one field for each integer, and every name of the registry that denotes an
integer is tagged with the field of this integer. Names of Zig are given out one after another, so
that a name depends on all names before it; which field a name is tagged with depends on integers
only.

## The invariant

`Presents decl names m` says this of the names that were met, in terms of what they denote in the
whole enum. A value that is no alias denotes its own integer and an alias that of the value at the
end of its chain, so one invariant serves both passes. The second pass needs no new fields: what an
alias denotes was met in the first.
-/

namespace XrBindings

/-- The values that are no aliases have names that are not too long to be rendered. -/
def EnumDecl.Renderable (decl : EnumDecl) : Prop :=
  ∀ v ∈ decl.values, v.isAlias = false →
    ∃ n, v.name = some n ∧ (Zig.unwrapIdentifier n).length ≤ maxIdentifierLength

instance (decl : EnumDecl) : Decidable decl.Renderable :=
  decidable_of_iff
    (∀ v ∈ decl.values, v.isAlias = false →
      v.name.any fun n ↦ (Zig.unwrapIdentifier n).length ≤ maxIdentifierLength)
    (by simp only [EnumDecl.Renderable, Option.any_eq_true, decide_eq_true_eq])

namespace EnumMembers

open XrBindings.Naming XrBindings.ResultPartition

variable {r : Renderer} {decl : EnumDecl} {m m' : EnumMembers} {names names' : List (Option String)}
  {values aliases : List EnumValue} {v w : EnumValue} {f : EnumField} {n name : String}
  {a : Option String} {k : Int}

/-! ## Denoted integers -/

theorem denotes_unique (hd : (decl.values.map (·.name)).Nodup) {j : Int}
    (hj : Denotes decl a j) (hk : Denotes decl a k) : j = k := by
  obtain ⟨v, hv, hvj, hav⟩ := hj
  obtain ⟨w, hw, hwk, haw⟩ := hk
  have hname : v.name = w.name := hav.unique (rightUnique_valueAliasOf hd) haw
  obtain rfl := List.inj_on_of_nodup_map hd hv hw hname
  exact Option.some.inj (Except.ok.inj (hvj.symm.trans hwk))

theorem mem_names_of_denotes (h : Denotes decl a k) : a ∈ decl.values.map (·.name) := by
  obtain ⟨w, hw, -, hreach, -⟩ := h
  rcases hreach.cases_head with rfl | ⟨b, ⟨v, hv, rfl, -⟩, -⟩
  · exact List.mem_map_of_mem hw
  · exact List.mem_map_of_mem hv

theorem denotes_of_endsAt (hd : (decl.values.map (·.name)).Nodup) {b : Option String}
    (hab : EndsAt (ValueAliasOf decl) a b) (hb : Denotes decl b k) : Denotes decl a k := by
  obtain ⟨w, hw, hwk, hbw⟩ := hb
  have hend : b = w.name := (EndsAt.refl hab.2).unique (rightUnique_valueAliasOf hd) hbw
  exact ⟨w, hw, hwk, hend ▸ hab⟩

theorem aliasTerminal?_spec {last : String} (hd : (decl.values.map (·.name)).Nodup)
    (h : aliasTerminal? decl v = some last) :
    EndsAt (ValueAliasOf decl) v.name (some last) := by
  rw [aliasTerminal?] at h
  split at h
  · next last' hfollow =>
    obtain ⟨_, -, rfl⟩ := Option.map_eq_some_iff.mp h
    rw [← step_valueLinks hd]
    exact Chain.follow_eq_arrives_iff.mp hfollow
  · exact absurd h (by simp)

/-! ## The invariant -/

/-- A layout presents names of an enum. Its own names differ, it has one field for each integer that
the names denote, and the names that denote an integer, and no others, are tagged with its field. A
constant stands for a field. -/
structure Presents (decl : EnumDecl) (names : List (Option String)) (m : EnumMembers) : Prop where
  nodup_used : m.used.Nodup
  nodup_values : (m.fields.map (·.value)).Nodup
  mem_values_iff : ∀ k, k ∈ m.fields.map (·.value) ↔ ∃ n, some n ∈ names ∧ Denotes decl (some n) k
  get?_tags_iff : ∀ n tag, m.tags.get? n = some tag ↔
    some n ∈ names ∧ ∃ f ∈ m.fields, f.name = tag ∧ Denotes decl (some n) f.value
  constants_refer : ∀ c ∈ m.constants, c.2 ∈ m.fields.map (·.name)

theorem presents_nil (decl : EnumDecl) : Presents decl [] {} where
  nodup_used := List.nodup_nil
  nodup_values := List.nodup_nil
  mem_values_iff := by simp
  get?_tags_iff := by simp [Table.get?, Table.empty]
  constants_refer := by simp

namespace Presents

theorem eq_of_value {g : EnumField} (h : Presents decl names m) (hf : f ∈ m.fields)
    (hg : g ∈ m.fields) (hvalue : f.value = g.value) : f = g :=
  List.inj_on_of_nodup_map h.nodup_values hf hg hvalue

theorem exists_tag (h : Presents decl names m) (hmem : some n ∈ names)
    (hk : Denotes decl (some n) k) :
    ∃ f ∈ m.fields, m.tags.get? n = some f.name ∧ f.value = k := by
  obtain ⟨f, hf, rfl⟩ := List.mem_map.mp ((h.mem_values_iff k).mpr ⟨n, hmem, hk⟩)
  exact ⟨f, hf, (h.get?_tags_iff n f.name).mpr ⟨hmem, f, hf, rfl, hk⟩, rfl⟩

theorem skip (h : Presents decl names m) (hnone : ∀ n, a = some n → ∀ k, ¬Denotes decl (some n) k) :
    Presents decl (names ++ [a]) m where
  nodup_used := h.nodup_used
  nodup_values := h.nodup_values
  mem_values_iff := by
    intro k
    rw [h.mem_values_iff]
    constructor
    · rintro ⟨n, hmem, hk⟩
      exact ⟨n, List.mem_append_left _ hmem, hk⟩
    · rintro ⟨n, hmem, hk⟩
      rcases List.mem_append.mp hmem with hmem | hmem
      · exact ⟨n, hmem, hk⟩
      · exact absurd hk (hnone n (List.mem_singleton.mp hmem).symm k)
  get?_tags_iff := by
    intro n tag
    rw [h.get?_tags_iff]
    constructor
    · rintro ⟨hmem, hfield⟩
      exact ⟨List.mem_append_left _ hmem, hfield⟩
    · rintro ⟨hmem, f, hf, htag, hk⟩
      rcases List.mem_append.mp hmem with hmem | hmem
      · exact ⟨hmem, f, hf, htag, hk⟩
      · exact absurd hk (hnone n (List.mem_singleton.mp hmem).symm f.value)
  constants_refer := h.constants_refer

/-- A constant with a new name stands for a field. -/
theorem addConstant (h : Presents decl names m) (hf : f ∈ m.fields) (hname : name ∉ m.used) :
    Presents decl names { m with constants := m.constants ++ [(name, f.name)] } where
  nodup_used := by
    have hperm : ({ m with constants := m.constants ++ [(name, f.name)] } : EnumMembers).used.Perm
        (name :: m.used) := by
      simpa [used] using List.perm_append_singleton name m.used
    exact hperm.nodup_iff.mpr (List.nodup_cons.mpr ⟨hname, h.nodup_used⟩)
  nodup_values := h.nodup_values
  mem_values_iff := h.mem_values_iff
  get?_tags_iff := h.get?_tags_iff
  constants_refer := by
    intro c hc
    rcases List.mem_append.mp hc with hc | hc
    · exact h.constants_refer c hc
    · rw [List.mem_singleton.mp hc]
      exact List.mem_map_of_mem hf

theorem setTag (h : Presents decl names m) (hd : (decl.values.map (·.name)).Nodup)
    (hf : f ∈ m.fields) (hk : Denotes decl (some n) f.value) :
    Presents decl (names ++ [some n]) { m with tags := m.tags.insert n f.name } where
  nodup_used := h.nodup_used
  nodup_values := h.nodup_values
  mem_values_iff := by
    intro k
    rw [h.mem_values_iff]
    constructor
    · rintro ⟨n', hmem, hk'⟩
      exact ⟨n', List.mem_append_left _ hmem, hk'⟩
    · rintro ⟨n', hmem, hk'⟩
      rcases List.mem_append.mp hmem with hmem | hmem
      · exact ⟨n', hmem, hk'⟩
      · obtain rfl : n' = n := by simpa using hmem
        obtain rfl := denotes_unique hd hk hk'
        exact (h.mem_values_iff _).mp (List.mem_map_of_mem hf)
  get?_tags_iff := by
    intro n' tag
    by_cases hn : n' = n
    · subst hn
      rw [Table.get?_insert_self, Option.some.injEq]
      constructor
      · rintro rfl
        exact ⟨by simp, f, hf, rfl, hk⟩
      · rintro ⟨-, g, hg, rfl, hk'⟩
        rw [h.eq_of_value hf hg (denotes_unique hd hk hk')]
    · rw [Table.get?_insert_of_ne _ hn, h.get?_tags_iff]
      simp [hn]
  constants_refer := h.constants_refer

theorem addField (h : Presents decl names m) (hd : (decl.values.map (·.name)).Nodup)
    (hname : name ∉ m.used) (hk : Denotes decl (some n) k) (hnew : k ∉ m.fields.map (·.value)) :
    Presents decl (names ++ [some n])
      { m with
        fields := m.fields ++ [{ name, value := k, source := n }]
        tags := m.tags.insert n name } where
  nodup_used := by
    have hperm : ({ m with
        fields := m.fields ++ [{ name, value := k, source := n }]
        tags := m.tags.insert n name } : EnumMembers).used.Perm (name :: m.used) := by
      simp [used]
    exact hperm.nodup_iff.mpr (List.nodup_cons.mpr ⟨hname, h.nodup_used⟩)
  nodup_values := by
    rw [List.map_append, List.map_singleton, (List.perm_append_singleton _ _).nodup_iff]
    exact List.nodup_cons.mpr ⟨hnew, h.nodup_values⟩
  mem_values_iff := by
    intro j
    rw [List.map_append, List.mem_append, h.mem_values_iff]
    constructor
    · rintro (⟨n', hmem, hj⟩ | hj)
      · exact ⟨n', List.mem_append_left _ hmem, hj⟩
      · obtain rfl : j = k := by simpa using hj
        exact ⟨n, by simp, hk⟩
    · rintro ⟨n', hmem, hj⟩
      rcases List.mem_append.mp hmem with hmem | hmem
      · exact Or.inl ⟨n', hmem, hj⟩
      · obtain rfl : n' = n := by simpa using hmem
        simp [denotes_unique hd hj hk]
  get?_tags_iff := by
    intro n' tag
    by_cases hn : n' = n
    · subst hn
      rw [Table.get?_insert_self, Option.some.injEq]
      constructor
      · rintro rfl
        exact ⟨by simp, _, List.mem_append_right _ List.mem_cons_self, rfl, hk⟩
      · rintro ⟨-, g, hg, rfl, hk'⟩
        rcases List.mem_append.mp hg with hg | hg
        · exact absurd (List.mem_map.mpr ⟨g, hg, denotes_unique hd hk' hk⟩) hnew
        · rw [List.mem_singleton.mp hg]
    · rw [Table.get?_insert_of_ne _ hn, h.get?_tags_iff]
      constructor
      · rintro ⟨hmem, g, hg, htag, hj⟩
        exact ⟨List.mem_append_left _ hmem, g, List.mem_append_left _ hg, htag, hj⟩
      · rintro ⟨hmem, g, hg, htag, hj⟩
        have hmem : some n' ∈ names := by simpa [hn] using hmem
        rcases List.mem_append.mp hg with hg | hg
        · exact ⟨hmem, g, hg, htag, hj⟩
        · obtain rfl := List.mem_singleton.mp hg
          exact absurd ((h.mem_values_iff k).mpr ⟨n', hmem, hj⟩) hnew
  constants_refer := by
    intro c hc
    rw [List.map_append]
    exact List.mem_append_left _ (h.constants_refer c hc)

/-! ## The two passes -/

/-- **A value that is no alias.** It becomes a field or a constant, and is tagged with the field of
its integer. -/
theorem addValue (h : Presents decl names m) (hd : (decl.values.map (·.name)).Nodup)
    (hv : v ∈ decl.values) (halias : v.isAlias = false)
    (hstep : EnumMembers.addValue r decl.name m v = .ok m') :
    Presents decl (names ++ [v.name]) m' := by
  obtain ⟨source, short, long, k, hname, -, hvalue, hadded⟩ := addValue_cases hstep
  have hk : Denotes decl (some source) k :=
    hname ▸ denotes_of_integer? hd hv (integer_eq_ok halias hvalue)
  have hfresh : uniqueName short long m.used ∉ m.used := (uniqueName_spec short long m.used).1
  rw [hname]
  obtain ⟨f, hfind, rfl⟩ | ⟨hfind, rfl⟩ := hadded
  · have hf : f ∈ m.fields := List.mem_of_find?_eq_some hfind
    obtain rfl : f.value = k := by simpa using List.find?_some hfind
    exact (h.addConstant hf hfresh).setTag hd hf hk
  · refine h.addField hd hfresh hk ?_
    intro hmem
    obtain ⟨f, hf, hfk⟩ := List.mem_map.mp hmem
    exact List.find?_eq_none.mp hfind f hf (by simp [hfk])

theorem foldlM_addValue (h : Presents decl names m) (hd : (decl.values.map (·.name)).Nodup)
    (hvalues : ∀ v ∈ values, v ∈ decl.values ∧ v.isAlias = false)
    (hfold : values.foldlM (EnumMembers.addValue r decl.name) m = .ok m') :
    Presents decl (names ++ values.map (·.name)) m' := by
  induction values generalizing m names with
  | nil =>
    rw [List.foldlM_nil, Result.pure_eq_ok_iff] at hfold
    rw [List.map_nil, List.append_nil]
    exact hfold ▸ h
  | cons v values ih =>
    rw [List.forall_mem_cons] at hvalues
    rw [List.foldlM_cons] at hfold
    obtain ⟨m₁, hstep, hfold⟩ := Result.bind_eq_ok_iff.mp hfold
    have hrest := ih (h.addValue hd hvalues.1.1 hvalues.1.2 hstep) hvalues.2 hfold
    rwa [List.append_assoc, List.singleton_append] at hrest

/-- **An alias.** It is tagged with the field of the value at the end of its chain, if there is such
a value. -/
theorem addAlias (h : Presents decl names m) (hd : (decl.values.map (·.name)).Nodup)
    (hproper : ∀ w ∈ decl.values, w.isAlias = false → ∃ last, w.name = some last ∧ w.name ∈ names) :
    Presents decl (names ++ [v.name]) (EnumMembers.addAlias r decl m v) := by
  have hterminal : ∀ k, Denotes decl v.name k →
      ∃ last field, aliasTerminal? decl v = some last ∧ m.tags.get? last = some field := by
    rintro k ⟨w, hw, hwk, hends⟩
    have halias := EnumValue.isAlias_eq_false_of_integer? hwk
    obtain ⟨last, hlast, hmem⟩ := hproper w hw halias
    obtain ⟨f, -, htag, -⟩ :=
      h.exists_tag (hlast ▸ hmem) (hlast ▸ denotes_of_integer? hd hw hwk)
    exact ⟨last, f.name, aliasTerminal?_eq_some hd hw hlast hends, htag⟩
  rw [EnumMembers.addAlias]
  split
  · next source field hname hfield =>
    obtain ⟨last, hlast, htag⟩ := Option.bind_eq_some_iff.mp hfield
    obtain ⟨-, f, hf, rfl, hk⟩ := (h.get?_tags_iff last field).mp htag
    have hk : Denotes decl (some source) f.value :=
      denotes_of_endsAt hd (hname ▸ aliasTerminal?_spec hd hlast) hk
    rw [hname]
    have htagged := h.setTag hd hf hk
    dsimp only
    split
    · exact htagged
    · next hfree => exact htagged.addConstant hf (by simpa using hfree)
  · next hnone =>
    refine h.skip fun n hn k hk ↦ ?_
    obtain ⟨last, field, hlast, htag⟩ := hterminal k (hn ▸ hk)
    exact hnone n field hn (Option.bind_eq_some_iff.mpr ⟨last, hlast, htag⟩)

theorem foldl_addAlias (h : Presents decl names m) (hd : (decl.values.map (·.name)).Nodup)
    (hproper : ∀ w ∈ decl.values, w.isAlias = false → ∃ last, w.name = some last ∧ w.name ∈ names) :
    Presents decl (names ++ aliases.map (·.name))
      (aliases.foldl (EnumMembers.addAlias r decl) m) := by
  induction aliases generalizing m names with
  | nil =>
    rw [List.map_nil, List.append_nil]
    exact h
  | cons v aliases ih =>
    have hrest := ih (h.addAlias (v := v) (r := r) hd hproper) ?_
    · rwa [List.append_assoc, List.singleton_append] at hrest
    · intro w hw halias
      obtain ⟨last, hlast, hmem⟩ := hproper w hw halias
      exact ⟨last, hlast, List.mem_append_left _ hmem⟩

end Presents

theorem Presents.congr (h : Presents decl names m) (hnames : ∀ a, a ∈ names ↔ a ∈ names') :
    Presents decl names' m where
  nodup_used := h.nodup_used
  nodup_values := h.nodup_values
  mem_values_iff := by simpa only [hnames] using h.mem_values_iff
  get?_tags_iff := by simpa only [hnames] using h.get?_tags_iff
  constants_refer := h.constants_refer

theorem presents_ofDecl (hd : (decl.values.map (·.name)).Nodup) (h : ofDecl r decl = .ok m) :
    Presents decl (decl.values.map (·.name)) m := by
  obtain ⟨m₁, hvalues, h⟩ := Result.bind_eq_ok_iff.mp h
  obtain rfl := Result.pure_eq_ok_iff.mp h
  have hproper := (presents_nil decl).foldlM_addValue hd
    (fun v hv ↦ by simpa using List.mem_filter.mp hv) hvalues
  refine (hproper.foldl_addAlias hd ?_).congr fun a ↦ ?_
  · intro w hw halias
    have hmem : w ∈ decl.values.filter fun v ↦ !v.isAlias :=
      List.mem_filter.mpr ⟨hw, by simp [halias]⟩
    obtain ⟨last, -, hlast⟩ := (mem_keys_foldlM_addValue hvalues).1 w hmem
    exact ⟨last, hlast, List.mem_map_of_mem hmem⟩
  · have hsplit := List.filter_append_perm (fun v : EnumValue ↦ !v.isAlias) decl.values
    simp only [Bool.not_not] at hsplit
    rw [List.nil_append, ← List.map_append]
    exact (hsplit.map _).mem_iff

/-! ## Layouts of all enums -/

theorem exists_candidates_eq_ok (r : Renderer) (enumName : String) (isBitmask : Bool)
    (hname : v.name = some n)
    (hlength : (Zig.unwrapIdentifier n).length ≤ maxIdentifierLength) :
    ∃ names, candidates r enumName v isBitmask = .ok names := by
  have hrender : ∃ long, r.render n .snake = .ok long := by
    rw [Renderer.render, Renderer.convert]
    dsimp only
    rw [if_neg (by omega)]
    exact ⟨_, rfl⟩
  obtain ⟨long, hlong⟩ := hrender
  rw [candidates, hname]
  exact ⟨_, Result.bind_eq_ok_iff.mpr ⟨n, rfl, Result.bind_eq_ok_iff.mpr ⟨long, hlong, rfl⟩⟩⟩

theorem exists_integer_eq_ok (hv : ∀ bit, v.bit? = some bit → 0 ≤ bit) :
    ∃ k, integer v = .ok k := by
  obtain ⟨value, hvalue⟩ := EnumValue.exists_integer?_eq_ok_iff.mpr hv
  rw [integer, hvalue]
  cases value with
  | none => exact ⟨0, rfl⟩
  | some k => exact ⟨k, rfl⟩

theorem exists_addValue_eq_ok (r : Renderer) (enumName : String) (m : EnumMembers)
    (hname : v.name = some n) (hlength : (Zig.unwrapIdentifier n).length ≤ maxIdentifierLength)
    (hv : ∀ bit, v.bit? = some bit → 0 ≤ bit) :
    ∃ m', addValue r enumName m v = .ok m' := by
  obtain ⟨⟨source, short, long⟩, hcandidates⟩ := exists_candidates_eq_ok r enumName _ hname hlength
  obtain ⟨k, hk⟩ := exists_integer_eq_ok hv
  rw [addValue, hcandidates, Result.ok_bind]
  dsimp only
  rw [hk, Result.ok_bind]
  split <;> exact ⟨_, rfl⟩

/-- An enum with names that are not too long and without negative bit positions has a layout. -/
theorem exists_ofDecl_eq_ok (r : Renderer) (hnames : decl.Renderable)
    (hbits : ∀ v ∈ decl.values, ∀ bit, v.bit? = some bit → 0 ≤ bit) :
    ∃ m, ofDecl r decl = .ok m := by
  have hfold : ∃ m, (decl.values.filter fun v ↦ !v.isAlias).foldlM (addValue r decl.name) {} =
      .ok m := by
    refine Result.exists_foldlM_eq_ok (fun _ ↦ True) trivial ?_
    intro v hv m _
    obtain ⟨hv, halias⟩ := List.mem_filter.mp hv
    obtain ⟨n, hname, hlength⟩ := hnames v hv (by simpa using halias)
    obtain ⟨m', hm'⟩ := exists_addValue_eq_ok r decl.name m hname hlength (hbits v hv)
    exact ⟨m', hm', trivial⟩
  obtain ⟨m, hm⟩ := hfold
  exact ⟨_, Result.bind_eq_ok_iff.mpr ⟨m, hm, rfl⟩⟩

/-- **An enum keeps every value.** If its names differ and none is too long, and no bit position is
negative, an enum has a layout. The names of its fields and constants differ, and its fields are the
integers of the values that are no aliases, each once. Tagged are the names whose chain ends at such
a value, at once if they name one: with a field, which is no constant and has the integer of that
value. Constants stand for fields. -/
theorem ofDecl_keeps_values (r : Renderer) (decl : EnumDecl)
    (hd : (decl.values.map (·.name)).Nodup) (hnames : decl.Renderable)
    (hbits : ∀ v ∈ decl.values, ∀ bit, v.bit? = some bit → 0 ≤ bit) :
    ∃ m, ofDecl r decl = .ok m ∧
      (m.fields.map (·.name) ++ m.constants.map (·.1)).Nodup ∧
      (m.fields.map (·.value)).Nodup ∧
      (∀ k, k ∈ m.fields.map (·.value) ↔
        ∃ v ∈ decl.values, v.isAlias = false ∧ v.integer? = .ok (some k)) ∧
      (∀ n, n ∈ m.tags.keys ↔ ∃ v ∈ decl.values, v.name = some n ∧
        ∃ w ∈ decl.values, w.isAlias = false ∧ EndsAt (ValueAliasOf decl) v.name w.name) ∧
      (∀ v ∈ decl.values, ∀ n, v.name = some n → ∀ w ∈ decl.values, w.isAlias = false →
        EndsAt (ValueAliasOf decl) v.name w.name → ∃ f ∈ m.fields,
          m.tags.get? n = some f.name ∧ f.name ∉ m.constants.map (·.1) ∧
          w.integer? = .ok (some f.value)) ∧
      ∀ c ∈ m.constants, c.2 ∈ m.fields.map (·.name) := by
  obtain ⟨m, hm⟩ := exists_ofDecl_eq_ok r hnames hbits
  have h := presents_ofDecl hd hm
  have hinteger : ∀ w ∈ decl.values, w.isAlias = false → ∃ k, w.integer? = .ok (some k) := by
    intro w hw halias
    obtain ⟨value, hvalue⟩ := EnumValue.exists_integer?_eq_ok_iff.mpr (hbits w hw)
    cases value with
    | some k => exact ⟨k, hvalue⟩
    | none => simp [EnumValue.integer?_eq_ok_none_iff.mp hvalue] at halias
  refine ⟨m, hm, h.nodup_used, h.nodup_values, ?_, ?_, ?_, h.constants_refer⟩
  · intro k
    rw [h.mem_values_iff]
    constructor
    · rintro ⟨n, -, w, hw, hwk, -⟩
      exact ⟨w, hw, EnumValue.isAlias_eq_false_of_integer? hwk, hwk⟩
    · rintro ⟨v, hv, halias, hvk⟩
      obtain ⟨n, hname, -⟩ := hnames v hv halias
      exact ⟨n, hname ▸ List.mem_map_of_mem hv, hname ▸ denotes_of_integer? hd hv hvk⟩
  · intro n
    rw [Table.mem_keys_iff]
    constructor
    · rintro ⟨tag, htag⟩
      obtain ⟨hmem, f, -, -, w, hw, hwk, hends⟩ := (h.get?_tags_iff n tag).mp htag
      obtain ⟨v, hv, hname⟩ := List.mem_map.mp hmem
      exact ⟨v, hv, hname, w, hw, EnumValue.isAlias_eq_false_of_integer? hwk, hname ▸ hends⟩
    · rintro ⟨v, hv, hname, w, hw, halias, hends⟩
      obtain ⟨k, hk⟩ := hinteger w hw halias
      obtain ⟨f, -, htag, -⟩ :=
        h.exists_tag (hname ▸ List.mem_map_of_mem hv) ⟨w, hw, hk, hname ▸ hends⟩
      exact ⟨f.name, htag⟩
  · intro v hv n hname w hw halias hends
    obtain ⟨k, hk⟩ := hinteger w hw halias
    obtain ⟨f, hf, htag, rfl⟩ :=
      h.exists_tag (hname ▸ List.mem_map_of_mem hv) ⟨w, hw, hk, hname ▸ hends⟩
    refine ⟨f, hf, htag, fun hconstant ↦ ?_, hk⟩
    exact (List.nodup_append.mp h.nodup_used).2.2 _ (List.mem_map_of_mem hf) _ hconstant rfl

/-- An enum in which names are rendered alike, integers are repeated, and chains of aliases are long
or never end. -/
def crowdedEnum : EnumDecl where
  name := "XrMode"
  kind := "enum"
  values := [
    { name := some "XR_MODE_LATER", meaning := .aliasOf "XR_MODE_LATE", origin := "core" },
    { name := some "XR_MODE_LATE", meaning := .aliasOf "XR_MODE_show", origin := "core" },
    { name := some "XR_MODE_SHOW", meaning := .number 1, origin := "core" },
    { name := some "XR_MODE_show", meaning := .bit 1, origin := "core" },
    { name := some "XR_MODE_VIEW", meaning := .number 1, origin := "core" },
    { name := some "XR_MODE_LOOP", meaning := .aliasOf "XR_MODE_LOOP", origin := "core" }]

/-- An alias of an alias has the field of the value at the end, whose short name was taken. -/
theorem ofDecl_keeps_values_crowded :
    (crowdedEnum.values.map (·.name)).Nodup ∧ crowdedEnum.Renderable ∧
      (∀ v ∈ crowdedEnum.values, ∀ bit, v.bit? = some bit → 0 ≤ bit) ∧
      ∃ m, ofDecl ⟨[]⟩ crowdedEnum = .ok m ∧
        ∃ f ∈ m.fields, m.tags.get? "XR_MODE_LATER" = some f.name ∧ f.value = 2 := by
  have hd : (crowdedEnum.values.map (·.name)).Nodup := by decide
  have hnames : crowdedEnum.Renderable := by decide +kernel
  have hbits : ∀ v ∈ crowdedEnum.values, ∀ bit, v.bit? = some bit → 0 ≤ bit := by decide
  have hends : EndsAt (ValueAliasOf crowdedEnum) (some "XR_MODE_LATER") (some "XR_MODE_show") := by
    rw [← step_valueLinks hd]
    exact ⟨.tail (.single rfl) rfl, Chain.not_step_of_lookup rfl⟩
  obtain ⟨m, hm, -, -, -, -, htags, -⟩ := ofDecl_keeps_values ⟨[]⟩ crowdedEnum hd hnames hbits
  obtain ⟨f, hf, htag, -, hvalue⟩ :=
    htags ⟨some "XR_MODE_LATER", .aliasOf "XR_MODE_LATE", "core"⟩ (by simp [crowdedEnum]) _ rfl
      ⟨some "XR_MODE_show", .bit 1, "core"⟩ (by simp [crowdedEnum]) rfl hends
  exact ⟨hd, hnames, hbits, m, hm, f, hf, htag, (Option.some.inj (Except.ok.inj hvalue)).symm⟩

end EnumMembers

end XrBindings
