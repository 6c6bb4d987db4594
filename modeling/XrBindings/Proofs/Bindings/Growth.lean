import XrBindings.Proofs.Bindings.EnumLayout
import XrBindings.Proofs.Bindings.FlagType

/-!
# Growth of enums

Later versions of a registry add values at the end of an enum. What is laid out for the values that
were there does not change: names are given out in the order of the values, so a new value is named
when the old ones have their names, and a chain of aliases that ended in the old enum ends at the
same value in the new one.

The layouts before and after are two runs over lists of which one begins the other. Fields, flags
and masks are compared step by step. Tags need no second induction, because a tag is the field of
the integer that its name denotes, before and after. Nothing of the kind holds of the constants of
aliases, which come last and give way where a new field or constant has taken their name.
-/

namespace XrBindings

open Relation ResultPartition XrBindings.Naming

variable {r : Renderer} {decl : EnumDecl} {more : List EnumValue} {v : EnumValue}
  {a : Option String} {k : Int} {enumName : String}

/-- An enum with more values. -/
def EnumDecl.grow (decl : EnumDecl) (more : List EnumValue) : EnumDecl :=
  { decl with values := decl.values ++ more }

theorem filter_values_grow :
    (decl.grow more).values.filter (fun v ↦ !v.isAlias) =
      (decl.values.filter fun v ↦ !v.isAlias) ++ more.filter fun v ↦ !v.isAlias :=
  List.filter_append _ _

theorem denotes_grow (hd : ((decl.grow more).values.map (·.name)).Nodup)
    (h : Denotes decl a k) : Denotes (decl.grow more) a k := by
  obtain ⟨w, hw, hwk, hreach, -⟩ := h
  have hw' : w ∈ (decl.grow more).values := List.mem_append_left _ hw
  have hlinks : ∀ b c, ValueAliasOf decl b c → ValueAliasOf (decl.grow more) b c := by
    rintro b c ⟨u, hu, hlink⟩
    exact ⟨u, List.mem_append_left _ hu, hlink⟩
  have hend := not_valueAliasOf hd hw' (EnumValue.isAlias_eq_false_of_integer? hwk)
  exact ⟨w, hw', hwk, ReflTransGen.mono hlinks _ _ hreach, hend⟩

/-! ## Fields -/

namespace EnumMembers

variable {m m' : EnumMembers} {values aliases : List EnumValue}

theorem fields_prefix_addValue (h : addValue r enumName m v = .ok m') : m.fields <+: m'.fields := by
  obtain ⟨_, _, _, _, -, -, -, ⟨f, -, rfl⟩ | ⟨-, rfl⟩⟩ := addValue_cases h
  · exact List.prefix_refl _
  · exact List.prefix_append _ _

theorem fields_prefix_foldlM (h : values.foldlM (addValue r enumName) m = .ok m') :
    m.fields <+: m'.fields := by
  refine Result.foldlM_induction (fun m₁ ↦ m.fields <+: m₁.fields) h (List.prefix_refl _) ?_
  intro m₁ v m₂ hprefix hstep
  exact hprefix.trans (fields_prefix_addValue hstep)

theorem fields_addAlias : (addAlias r decl m v).fields = m.fields := by
  rw [addAlias]
  split
  · dsimp only
    split <;> rfl
  · rfl

theorem fields_foldl_addAlias : (aliases.foldl (addAlias r decl) m).fields = m.fields := by
  induction aliases generalizing m with
  | nil => rfl
  | cons v aliases ih => rw [List.foldl_cons, ih, fields_addAlias]

/-- The fields that there were are the first fields of the enum that grew. -/
theorem exists_fields_prefix (h : ofDecl r (decl.grow more) = .ok m') :
    ∃ m, ofDecl r decl = .ok m ∧ m.fields <+: m'.fields := by
  obtain ⟨m₂, hvalues, h⟩ := Result.bind_eq_ok_iff.mp h
  obtain rfl := Result.pure_eq_ok_iff.mp h
  rw [filter_values_grow, List.foldlM_append] at hvalues
  obtain ⟨m₁, hold, hnew⟩ := Result.bind_eq_ok_iff.mp hvalues
  refine ⟨_, Result.bind_eq_ok_iff.mpr ⟨m₁, hold, rfl⟩, ?_⟩
  rw [fields_foldl_addAlias, fields_foldl_addAlias]
  exact fields_prefix_foldlM hnew

/-- A tag stays: its field stays, and its name denotes the same integer. -/
theorem get?_tags_grow (hd : ((decl.grow more).values.map (·.name)).Nodup)
    (h : ofDecl r decl = .ok m) (h' : ofDecl r (decl.grow more) = .ok m')
    (hfields : m.fields <+: m'.fields) {n tag : String} (htag : m.tags.get? n = some tag) :
    m'.tags.get? n = some tag := by
  have hd₁ : (decl.values.map (·.name)).Nodup := by
    rw [EnumDecl.grow, List.map_append] at hd
    exact hd.of_append_left
  obtain ⟨-, f, hf, hname, hk⟩ := ((presents_ofDecl hd₁ h).get?_tags_iff n tag).mp htag
  have hk' := denotes_grow hd hk
  exact ((presents_ofDecl hd h').get?_tags_iff n tag).mpr
    ⟨mem_names_of_denotes hk', f, hfields.subset hf, hname, hk'⟩

end EnumMembers

/-! ## Flags and masks -/

namespace FlagLayout

variable {l l' : FlagLayout} {values : List EnumValue} {name : String} {width : Int}

theorem subset_addValue (h : addValue r enumName l v = .ok l') :
    l.bits ⊆ l'.bits ∧ l.masks ⊆ l'.masks := by
  obtain ⟨_, _, _, _, -, -, ⟨p, -, rfl⟩ | ⟨-, -, rfl⟩⟩ := addValue_cases h
  · exact ⟨List.subset_append_left _ _, List.Subset.refl _⟩
  · exact ⟨List.Subset.refl _, List.subset_append_left _ _⟩

theorem subset_foldlM (h : values.foldlM (addValue r enumName) l = .ok l') :
    l.bits ⊆ l'.bits ∧ l.masks ⊆ l'.masks := by
  refine Result.foldlM_induction (fun l₁ ↦ l.bits ⊆ l₁.bits ∧ l.masks ⊆ l₁.masks) h
    ⟨List.Subset.refl _, List.Subset.refl _⟩ ?_
  intro l₁ v l₂ ⟨hbits, hmasks⟩ hstep
  obtain ⟨hbits', hmasks'⟩ := subset_addValue hstep
  exact ⟨List.Subset.trans hbits hbits', List.Subset.trans hmasks hmasks'⟩

/-- Flags and masks that there were are flags and masks of the enum that grew. -/
theorem exists_subset (h : ofEnum r name width (decl.grow more) = .ok l') :
    ∃ l, ofEnum r name width decl = .ok l ∧ l.bits ⊆ l'.bits ∧ l.masks ⊆ l'.masks := by
  obtain ⟨l₂, hvalues, h⟩ := Result.bind_eq_ok_iff.mp h
  obtain rfl := Result.pure_eq_ok_iff.mp h
  rw [filter_values_grow, List.foldlM_append] at hvalues
  obtain ⟨l₁, hold, hnew⟩ := Result.bind_eq_ok_iff.mp hvalues
  obtain ⟨hbits, hmasks⟩ := subset_foldlM hnew
  refine ⟨_, Result.bind_eq_ok_iff.mpr ⟨l₁, hold, rfl⟩, ?_, hmasks⟩
  -- Sorting by positions is a permutation of the flags on both sides.
  intro b hb
  rw [List.mem_mergeSort] at hb ⊢
  exact hbits hb

theorem exists_addValue_eq_ok (r : Renderer) (enumName : String) (hl : 0 ≤ l.width)
    {n : String} (hname : v.name = some n)
    (hlength : (Zig.unwrapIdentifier n).length ≤ maxIdentifierLength)
    (hbit : ∀ bit, v.bit? = some bit → 0 ≤ bit) :
    ∃ l', addValue r enumName l v = .ok l' ∧ 0 ≤ l'.width := by
  obtain ⟨⟨source, short, long⟩, hcandidates⟩ :=
    EnumMembers.exists_candidates_eq_ok r enumName true hname hlength
  obtain ⟨k, hk⟩ := EnumMembers.exists_integer_eq_ok hbit
  rw [addValue, hcandidates, Result.ok_bind]
  dsimp only
  rw [hk, Result.ok_bind]
  split
  · exact ⟨_, rfl, hl⟩
  · exact ⟨_, rfl, hl⟩
  · rw [if_neg (not_lt.mpr hl)]
    exact ⟨_, rfl, hl⟩

theorem exists_ofEnum_eq_ok (r : Renderer) (name : String) (hwidth : 0 ≤ width)
    (hnames : decl.Renderable) (hbits : ∀ v ∈ decl.values, ∀ bit, v.bit? = some bit → 0 ≤ bit) :
    ∃ l, ofEnum r name width decl = .ok l := by
  have hfold : ∃ l, (decl.values.filter fun v ↦ !v.isAlias).foldlM (addValue r decl.name)
      { name, width } = .ok l := by
    refine Result.exists_foldlM_eq_ok (fun l ↦ 0 ≤ l.width) hwidth ?_
    intro v hv l hl
    obtain ⟨hv, halias⟩ := List.mem_filter.mp hv
    obtain ⟨n, hname, hlength⟩ := hnames v hv (by simpa using halias)
    exact exists_addValue_eq_ok r decl.name hl hname hlength (hbits v hv)
  obtain ⟨l, hl⟩ := hfold
  exact ⟨_, Result.bind_eq_ok_iff.mpr ⟨l, hl, rfl⟩⟩

end FlagLayout

/-- Two contexts with the same names, of which the second finds more values in an enum. -/
structure Grows (c c' : Context) (block : String) (decl : EnumDecl) (more : List EnumValue) :
    Prop where
  renderer_eq : c'.renderer = c.renderer
  before : c.document.enums.get? block = some decl
  after : c'.document.enums.get? block = some (decl.grow more)

/-- **Bindings are stable.** Where values with new names are added to an enum, the fields that there
were stay the first fields and every tag stays; and in a set of flags of the same storage every flag
keeps its position and every mask its bits. The enum that grew has these layouts if no name is too
long and no bit position negative. -/
theorem layouts_stable {c c' : Context} {block : String} (hgrows : Grows c c' block decl more)
    (hd : ((decl.grow more).values.map (·.name)).Nodup) :
    (∀ m', c'.enumMembers (decl.grow more) = .ok m' →
      ∃ m, c.enumMembers decl = .ok m ∧ m.fields <+: m'.fields ∧
        ∀ n tag, m.tags.get? n = some tag → m'.tags.get? n = some tag) ∧
    (∀ name width l', c'.flagLayout name (some block) width = .ok l' →
      ∃ l, c.flagLayout name (some block) width = .ok l ∧
        l.bits ⊆ l'.bits ∧ l.masks ⊆ l'.masks) ∧
    ((decl.grow more).Renderable →
      (∀ v ∈ (decl.grow more).values, ∀ bit, v.bit? = some bit → 0 ≤ bit) →
        (∃ m', c'.enumMembers (decl.grow more) = .ok m') ∧
        ∀ name width, 0 ≤ width → ∃ l', c'.flagLayout name (some block) width = .ok l') := by
  refine ⟨?_, ?_, ?_⟩
  · intro m' h'
    rw [Context.enumMembers, hgrows.renderer_eq] at h'
    obtain ⟨m, h, hfields⟩ := EnumMembers.exists_fields_prefix h'
    exact ⟨m, h, hfields, fun n tag ↦ EnumMembers.get?_tags_grow hd h h' hfields⟩
  · intro name width l' h'
    rw [Context.flagLayout_of_get? hgrows.after, hgrows.renderer_eq] at h'
    rw [Context.flagLayout_of_get? hgrows.before]
    split_ifs at h' ⊢
    · exact ⟨l', h', List.Subset.refl _, List.Subset.refl _⟩
    · exact FlagLayout.exists_subset h'
  · intro hnames hbits
    refine ⟨EnumMembers.exists_ofDecl_eq_ok _ hnames hbits, fun name width hwidth ↦ ?_⟩
    rw [Context.flagLayout_of_get? hgrows.after]
    split_ifs
    · exact ⟨_, rfl⟩
    · exact FlagLayout.exists_ofEnum_eq_ok _ name hwidth hnames hbits

/-- Values that come later: one that takes the name of a constant, one with the integer of a field,
and an alias of an alias. -/
def laterModes : List EnumValue := [
  { name := some "XR_MODE_later", meaning := .number 3, origin := "XR_EXT_later" },
  { name := some "XR_MODE_SHOWN", meaning := .bit 1, origin := "XR_EXT_later" },
  { name := some "XR_MODE_LATEST", meaning := .aliasOf "XR_MODE_LATER", origin := "XR_EXT_later" }]

open EnumMembers (crowdedEnum)

/-- The new values take names and integers of the old ones, whose fields and tags stay. -/
theorem layouts_stable_crowded :
    Grows crowdedEnum.context (crowdedEnum.grow laterModes).context "XrMode" crowdedEnum
        laterModes ∧
      ((crowdedEnum.grow laterModes).values.map (·.name)).Nodup ∧
      (∃ m m', crowdedEnum.context.enumMembers crowdedEnum = .ok m ∧
        (crowdedEnum.grow laterModes).context.enumMembers (crowdedEnum.grow laterModes) = .ok m' ∧
        m.fields <+: m'.fields ∧ m'.tags.get? "XR_MODE_LATER" = some "xr_mode_show") ∧
      ∃ l l', crowdedEnum.context.flagLayout "Mode" (some "XrMode") 64 = .ok l ∧
        (crowdedEnum.grow laterModes).context.flagLayout "Mode" (some "XrMode") 64 = .ok l' ∧
        l.bits ⊆ l'.bits ∧ l.masks ⊆ l'.masks := by
  have hgrows : Grows crowdedEnum.context (crowdedEnum.grow laterModes).context "XrMode"
      crowdedEnum laterModes :=
    ⟨rfl, crowdedEnum.get?_context, (crowdedEnum.grow laterModes).get?_context⟩
  have hd : ((crowdedEnum.grow laterModes).values.map (·.name)).Nodup := by decide
  have hnames : (crowdedEnum.grow laterModes).Renderable := by decide +kernel
  have hbits : ∀ v ∈ (crowdedEnum.grow laterModes).values, ∀ bit, v.bit? = some bit → 0 ≤ bit := by
    decide
  obtain ⟨hmembers, hflags, hlayouts⟩ := layouts_stable hgrows hd
  obtain ⟨⟨m', hm'⟩, hflags'⟩ := hlayouts hnames hbits
  obtain ⟨m, hm, hfields, htags⟩ := hmembers m' hm'
  obtain ⟨l', hl'⟩ := hflags' "Mode" 64 (by decide)
  obtain ⟨l, hl, hsubset⟩ := hflags "Mode" 64 l' hl'
  have htag : m.tags.get? "XR_MODE_LATER" = some "xr_mode_show" := by
    have hrun : (crowdedEnum.context.enumMembers crowdedEnum).map (·.tags.get? "XR_MODE_LATER") =
        .ok (some "xr_mode_show") := by decide +kernel
    rw [hm] at hrun
    exact Except.ok.inj hrun
  exact ⟨hgrows, hd, ⟨m, m', hm, hm', hfields, htags _ _ htag⟩, l, l', hl, hl', hsubset⟩

end XrBindings
