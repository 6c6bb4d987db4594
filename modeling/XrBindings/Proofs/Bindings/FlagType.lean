import XrBindings.Bindings.Declaration
import XrBindings.Proofs.Bindings.Context
import XrBindings.Proofs.Bindings.FlagEntries
import XrBindings.Proofs.Flags.Fields

/-!
# Sets of flags of accepted documents

The layout of a set of flags has one flag for each value of its enum that is one bit, with a name
of its own, and one mask for each other value. Whether the flags have different bits within the
width is another matter. Where a registry is read, bit positions are compared with each other, and
with the width if the enum names the bits of a set of flags. Integers are compared with nothing,
although a value that is given as an integer becomes a flag as well, and an enum of bits that
belongs to no set of flags has a width of its own that nothing is compared with.
-/

namespace XrBindings

open XrBindings.Naming

variable {d : Document} {c : Context} {r : Renderer} {enumName : String} {l l' : FlagLayout}
  {decl : EnumDecl} {values : List EnumValue} {v w : EnumValue} {f : String} {p : ℕ} {width : Int}

namespace FlagLayout

/-- The flags of a layout are the values of one bit, each with a name of its own. -/
structure Lays (l : FlagLayout) (r : Renderer) (enumName : String) (width : Int)
    (values : List EnumValue) : Prop where
  width_eq : l.width = width
  positions : (l.bits.map (·.2)).Perm (values.filterMap (·.flagBit?))
  exists_flag : ∀ v ∈ values, ∀ p, v.IsBit p → ∃ f, IsFlagName r enumName v f ∧ (f, p) ∈ l.bits
  exists_value : ∀ f p, (f, p) ∈ l.bits → ∃ v ∈ values, IsFlagName r enumName v f ∧ v.IsBit p
  nodup_used : l.used.Nodup

theorem Lays.of_filter (hl : l.Lays r enumName width (values.filter fun v ↦ !v.isAlias)) :
    l.Lays r enumName width values := by
  have hproper : ∀ v : EnumValue, ∀ p, v.IsBit p → (!v.isAlias) = true := by
    intro v p hp
    rw [EnumValue.isAlias_eq_false_of_integer? hp, Bool.not_false]
  refine ⟨hl.width_eq, ?_, ?_, ?_, hl.nodup_used⟩
  · have hsame : (values.filter fun v ↦ !v.isAlias).filterMap (·.flagBit?) =
        values.filterMap (·.flagBit?) := by
      rw [List.filterMap_filter]
      refine List.filterMap_congr fun v _ ↦ ?_
      split
      · rfl
      · next halias =>
        cases hbit : v.flagBit? with
        | none => rfl
        | some p => exact absurd (hproper v p (EnumValue.flagBit?_eq_some_iff.mp hbit)) halias
    exact hsame ▸ hl.positions
  · intro v hv p hp
    exact hl.exists_flag v (List.mem_filter.mpr ⟨hv, hproper v p hp⟩) p hp
  · intro f p hmem
    obtain ⟨v, hv, hspec⟩ := hl.exists_value f p hmem
    exact ⟨v, (List.mem_filter.mp hv).1, hspec⟩

/-- The flags among the entries of an enum are its values of one bit. -/
theorem lays_ofEnum {name : String} (h : ofEnum r name width decl = .ok l) :
    l.Lays r decl.name width decl.values := by
  obtain ⟨hwidth, es, hes, hperm⟩ := exists_stands_ofEnum h
  refine Lays.of_filter ⟨hwidth, ?_, ?_, ?_, nodup_used h⟩
  · rw [← filterMap_position?_entries, ← Entry.filterMap_position?_eq hes]
    exact hperm.symm.filterMap _
  · intro v hv p hp
    obtain ⟨e, he, hname, hmeans⟩ := Result.exists_mem_of_forall₂ hes hv
    cases hmeans with
    | flag hq =>
      obtain rfl := EnumValue.IsBit.unique hq hp
      exact ⟨_, hname, flag_mem_entries_iff.mp (hperm.subset he)⟩
    | mask hn hne => exact absurd (Option.some.inj (Except.ok.inj (hn.symm.trans hp))) (hne p)
  · intro f p hmem
    obtain ⟨v, hv, hname, hmeans⟩ := Result.exists_mem_of_forall₂ hes.flip
      (hperm.symm.subset (flag_mem_entries_iff.mpr hmem))
    cases hmeans with
    | flag hp => exact ⟨v, hv, hname, hp⟩

end FlagLayout

/-! ## Layouts of declarations -/

theorem Context.flagLayout_width {name : String} {bits : Option String}
    (h : c.flagLayout name bits width = .ok l) : l.width = width := by
  obtain rfl | ⟨decl, h⟩ := flagLayout_cases h
  · rfl
  · exact (FlagLayout.lays_ofEnum h).width_eq

/-- The declaration of a type for which the bindings lay out the values of an enum as flags: a set
of flags whose bits the enum names, or an enum of bits that belongs to no set of flags. -/
inductive Context.DeclaresFlags (c : Context) : TypeDecl → EnumDecl → FlagLayout → Prop
  | bitmask {source bits name : String} {width : ℕ} {decl : EnumDecl} {l : FlagLayout}
      (hname : c.declaredName (some source) = .ok name)
      (hdecl : c.document.enums.get? bits = some decl)
      (hlayout : c.flagLayout name (some bits) width = .ok l) :
      c.DeclaresFlags (.bitmask source width (some bits)) decl l
  | enum {source name : String} {decl : EnumDecl} {l : FlagLayout}
      (hname : c.declaredName (some source) = .ok name)
      (hdecl : c.document.enums.get? source = some decl)
      (hbitmask : decl.isBitmask = true)
      (howner : c.flagOwners.get? source = none)
      (hlayout : c.flagLayout name (some source) decl.bitWidth = .ok l) :
      c.DeclaresFlags (.enum source) decl l

namespace Context.DeclaresFlags

variable {ty : TypeDecl}

theorem declarationSource_eq (h : c.DeclaresFlags ty decl l) :
    c.declarationSource ty = .ok l.source := by
  cases h with
  | bitmask hname hdecl hlayout =>
    refine Result.bind_eq_ok_iff.mpr ⟨_, hname, ?_⟩
    dsimp only
    rw [hlayout]
    rfl
  | enum hname hdecl hbitmask howner hlayout =>
    refine Result.bind_eq_ok_iff.mpr ⟨_, hname, ?_⟩
    dsimp only
    rw [enumSource, hdecl]
    dsimp only
    rw [hbitmask, howner, hlayout]
    rfl

/-- The enum is looked up under its name, which must not be empty. -/
theorem flagLayout_eq (h : c.DeclaresFlags ty decl l) (hd : EnumsNamed c.document.enums) :
    c.document.enums.get? decl.name = some decl ∧
      ∃ name width, c.flagLayout name (some decl.name) width = .ok l := by
  cases h with
  | bitmask hname hdecl hlayout =>
    obtain ⟨rfl, -⟩ := hd _ _ hdecl
    exact ⟨hdecl, _, _, hlayout⟩
  | enum hname hdecl hbitmask howner hlayout =>
    obtain ⟨rfl, -⟩ := hd _ _ hdecl
    exact ⟨hdecl, _, _, hlayout⟩

theorem bits_eq_nil (h : c.DeclaresFlags ty decl l) (hd : EnumsNamed c.document.enums)
    (hname : decl.name = "") : l.bits = [] := by
  obtain ⟨hdecl, name, width, hlayout⟩ := h.flagLayout_eq hd
  rw [Context.flagLayout_of_get? hdecl, if_pos hname] at hlayout
  rw [← Except.ok.inj hlayout]

theorem lays (h : c.DeclaresFlags ty decl l) (hd : EnumsNamed c.document.enums)
    (hname : decl.name ≠ "") : ∃ width, l.Lays c.renderer decl.name width decl.values := by
  obtain ⟨hdecl, name, width, hlayout⟩ := h.flagLayout_eq hd
  rw [Context.flagLayout_of_get? hdecl, if_neg hname] at hlayout
  exact ⟨width, FlagLayout.lays_ofEnum hlayout⟩

theorem lt_width_of_isBit (h : c.DeclaresFlags ty decl l) (hd : c.document.Accepted)
    (hty : ty ∈ c.document.types.values) (henum : ∀ source, ty ≠ .enum source)
    (hv : v ∈ decl.values) (hbit : v.bit? ≠ none) (hp : v.IsBit p) : (p : Int) < l.width := by
  cases h with
  | bitmask hname hdecl hlayout =>
    rw [Context.flagLayout_width hlayout]
    exact_mod_cast hd.lt_width_of_isBit hty hdecl hv hbit hp
  | enum => exact absurd rfl (henum _)

end Context.DeclaresFlags

/-- **Flags of accepted documents.** The flags of a layout have different bits exactly if no value
that is given as an integer is the same bit as another value, and they fit into the width exactly if
the values given as integers do, and the bit positions as well where the enum belongs to no set of
flags. In such a layout the named bits lie within the storage, and every value of one bit is one
field. There is one more way to lose a flag: an enum with an empty name is taken for no enum. -/
theorem emitted_flags_wellFormed (hd : d.Accepted) (hc : Context.ofDocument d = .ok c)
    {ty : TypeDecl} (hty : ty ∈ d.types.values) (h : c.DeclaresFlags ty decl l) :
    c.declarationSource ty = .ok l.source ∧
    (decl.name = "" → l.bits = []) ∧
    (decl.name ≠ "" →
      ((l.bits.map (·.2)).Nodup ↔ ∀ v ∈ decl.values, ∀ w ∈ decl.values, v.bit? = none →
        ∀ p, v.IsBit p → w.IsBit p → v = w) ∧
      ((∀ b ∈ l.bits, (b.2 : Int) < l.width) ↔ ∀ v ∈ decl.values,
        (v.bit? = none ∨ ∃ source, ty = .enum source) → ∀ p, v.IsBit p → (p : Int) < l.width) ∧
      ((l.bits.map (·.2)).Nodup → (∀ b ∈ l.bits, (b.2 : Int) < l.width) →
        l.definedMask < 2 ^ l.width.toNat ∧
        (∀ v ∈ decl.values, ∀ p, v.IsBit p → ∃ f, IsFlagName c.renderer decl.name v f ∧
          l.fields.filter (·.2 == some f) = [(p, some f)]) ∧
        ∀ f p, (p, some f) ∈ l.fields → ∃ v ∈ decl.values,
          IsFlagName c.renderer decl.name v f ∧ v.IsBit p)) := by
  obtain ⟨rfl, -, -⟩ := Context.ofDocument_eq_ok hc
  have hnamed := hd.consistent.enums_named
  obtain ⟨hdecl, -⟩ := h.flagLayout_eq hnamed
  refine ⟨h.declarationSource_eq, h.bits_eq_nil hnamed, fun hname ↦ ?_⟩
  obtain ⟨width, hl⟩ := h.lays hnamed hname
  refine ⟨?_, ?_, fun hpositions hlt ↦ ⟨FlagLayout.definedMask_lt hlt, ?_, ?_⟩⟩
  · rw [hl.positions.nodup_iff, nodup_filterMap_iff (hnamed _ _ hdecl).2.of_map]
    simp only [EnumValue.flagBit?_eq_some_iff, ne_eq]
    constructor
    · intro hdistinct v hv w hw _ p hvp hwp
      by_contra hne
      exact hdistinct v hv w hw hne p hvp hwp
    · intro hapart v hv w hw hne p hvp hwp
      -- Two bit positions have been compared with each other already.
      by_cases hvbit : v.bit? = none
      · exact hne (hapart v hv w hw hvbit p hvp hwp)
      · by_cases hwbit : w.bit? = none
        · exact hne (hapart w hw v hv hwbit p hwp hvp).symm
        · exact hne (hd.eq_of_isBit hdecl hv hw hvbit hwbit hvp hwp)
  · constructor
    · intro hlt v hv _ p hp
      obtain ⟨f, -, hmem⟩ := hl.exists_flag v hv p hp
      exact hlt _ hmem
    · rintro hlt ⟨f, p⟩ hmem
      obtain ⟨v, hv, -, hp⟩ := hl.exists_value f p hmem
      by_cases hbit : v.bit? = none
      · exact hlt v hv (Or.inl hbit) p hp
      · by_cases henum : ∃ source, ty = .enum source
        · exact hlt v hv (Or.inr henum) p hp
        · exact h.lt_width_of_isBit hd hty (not_exists.mp henum) hv hbit hp
  · intro v hv p hp
    obtain ⟨f, hf, hmem⟩ := hl.exists_flag v hv p hp
    have hnames : (l.bits.map (·.1)).Nodup := hl.nodup_used.of_append_left
    exact ⟨f, hf, FlagLayout.filter_fields_eq hlt hpositions hnames hmem⟩
  · intro f p hmem
    exact hl.exists_value f p ((FlagLayout.mem_fields_iff hlt hpositions).mp hmem)

/-! ## A set of two flags -/

/-- A set of flags with a bit position and an integer. -/
def modesRegistry (value : String) : Xml.Element :=
  ⟨"registry", [], "", [
    ⟨"types", [], "", [
      ⟨"type", [("category", "bitmask"), ("bitvalues", "XrModeFlagBits")], "", [
        ⟨"type", [], "XrFlags64", [], ""⟩, ⟨"name", [], "XrModeFlags", [], ""⟩], ""⟩], ""⟩,
    ⟨"enums", [("name", "XrModeFlagBits"), ("type", "bitmask")], "", [
      ⟨"enum", [("name", "XR_MODE_SHOW_BIT"), ("bitpos", "0")], "", [], ""⟩,
      ⟨"enum", [("name", "XR_MODE_SHARE_BIT"), ("value", value)], "", [], ""⟩], ""⟩], ""⟩

def modesEnum (value : Int) : EnumDecl where
  name := "XrModeFlagBits"
  kind := "bitmask"
  values := [
    { name := some "XR_MODE_SHOW_BIT", meaning := .bit 0, origin := "core" },
    { name := some "XR_MODE_SHARE_BIT", meaning := .number value, origin := "core" }]

def modesType : TypeDecl := .bitmask "XrModeFlags" 64 (some "XrModeFlagBits")

def modesDocument (value : Int) : Document where
  tags := []
  types := Table.ofList [(some "XrModeFlags", modesType)]
  enums := Table.ofList [("XrModeFlagBits", modesEnum value)]
  commands := .empty
  commandAliases := .empty
  apiConstants := .empty
  features := []
  extensions := []
  origins := .empty
  version := "unknown"

def modesContext (value : Int) : Context where
  document := modesDocument value
  graph := {
    order := [modesType]
    canonical := Table.ofList [(some "XrModeFlags", some "XrModeFlags")]
    aliases := [] }
  renderer := ⟨[]⟩
  partitions := .empty
  flagOwners := Table.ofList [("XrModeFlagBits", "XrModeFlags")]

/-- The layout of the flags of `modesDocument`, if the integer is the bit `p`. -/
def modesLayout (p : ℕ) : FlagLayout where
  name := "ModeFlags"
  width := 64
  bits := [("show", 0), ("share", p)]

theorem ofDocument_modes (value : Int) :
    Context.ofDocument (modesDocument value) = .ok (modesContext value) := by
  with_unfolding_all rfl

theorem declaresFlags_modes {value : Int} {p : ℕ}
    (h : (modesEnum value).values.foldlM (FlagLayout.addValue ⟨[]⟩ "XrModeFlagBits")
      { name := "ModeFlags", width := 64 } = .ok (modesLayout p)) :
    (modesContext value).DeclaresFlags modesType (modesEnum value) (modesLayout p) := by
  have hname : (modesContext 0).declaredName (some "XrModeFlags") = .ok "ModeFlags" := by
    decide +kernel
  refine .bitmask hname rfl ?_
  exact FlagLayout.ofEnum_of_pairwise h (by simp [modesLayout])

set_option maxRecDepth 20000 in
/-- An integer that is a bit of its own becomes a field like a bit position. -/
theorem emitted_flags_wellFormed_modes :
    (modesDocument 4).Accepted ∧ Context.ofDocument (modesDocument 4) = .ok (modesContext 4) ∧
      modesType ∈ (modesDocument 4).types.values ∧
      (modesContext 4).DeclaresFlags modesType (modesEnum 4) (modesLayout 2) ∧
      (modesLayout 2).definedMask < 2 ^ 64 ∧
      ∃ f, (modesLayout 2).fields.filter (·.2 == some f) = [(2, some f)] := by
  have haccepted : (modesDocument 4).Accepted := ⟨modesRegistry "4", by with_unfolding_all rfl⟩
  have hcontext := ofDocument_modes 4
  have hty : modesType ∈ (modesDocument 4).types.values := List.mem_singleton_self _
  have hflags : (modesContext 4).DeclaresFlags modesType (modesEnum 4) (modesLayout 2) :=
    declaresFlags_modes (by decide +kernel)
  obtain ⟨-, -, hspec⟩ := emitted_flags_wellFormed haccepted hcontext hty hflags
  obtain ⟨-, -, hfields⟩ := hspec (by decide)
  obtain ⟨hmask, hvalues, -⟩ := hfields (by decide) (by decide)
  obtain ⟨f, -, hf⟩ := hvalues _ (List.mem_cons_of_mem _ List.mem_cons_self) 2 rfl
  exact ⟨haccepted, hcontext, hty, hflags, hmask, f, hf⟩

set_option maxRecDepth 20000 in
/-- An integer may be the bit that another value has the position of. -/
theorem flags_share_bit_modes :
    (modesDocument 1).Accepted ∧ Context.ofDocument (modesDocument 1) = .ok (modesContext 1) ∧
      modesType ∈ (modesDocument 1).types.values ∧
      (modesContext 1).DeclaresFlags modesType (modesEnum 1) (modesLayout 0) ∧
      ¬((modesLayout 0).bits.map (·.2)).Nodup :=
  ⟨⟨modesRegistry "1", by with_unfolding_all rfl⟩, ofDocument_modes 1, List.mem_singleton_self _,
    declaresFlags_modes (by decide +kernel), by decide⟩

end XrBindings
