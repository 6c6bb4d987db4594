import XrBindings.Proofs.Bindings.LayoutNames
import XrBindings.Proofs.Flags.Algebra
import XrBindings.Proofs.Registry.EnumBits

/-!
# Values as flags and masks

Every value of an enum that is no alias becomes one entry of a set of flags. It is a flag if its
integer is one bit, however the registry gives it, and otherwise a mask, which is cut to the
storage. Flags and masks are kept apart and flags are sorted in the end, so that the order of the
values is lost. What is left of it is a correspondence: the entries can be arranged so that they go
with the values one by one. An enum with an empty name is taken for none, and then nothing is left.
-/

namespace XrBindings

open XrBindings.Naming

variable {r : Renderer} {decl : EnumDecl} {enumName : String} {values : List EnumValue}
  {v : EnumValue} {width : Int}

/-- The name of a flag or a mask: the short one, the long one, or the long one with a number. -/
def IsFlagName (r : Renderer) (enumName : String) (v : EnumValue) (f : String) : Prop :=
  ∃ source long, v.name = some source ∧ r.render source .snake = .ok long ∧
    (f = r.enumValueName enumName source true ∨ f = long ∨ ∃ n, 2 ≤ n ∧ f = numbered long n)

namespace FlagLayout

/-- A flag or a mask of a layout. -/
inductive Entry where
  | flag (name : String) (position : ℕ)
  | mask (name : String) (bits : ℕ)
  deriving DecidableEq

namespace Entry

def name : Entry → String
  | flag name _ => name
  | mask name _ => name

def position? : Entry → Option ℕ
  | flag _ position => some position
  | mask _ _ => none

/-- The entry says what a value means: a flag is the only bit of its integer, and a mask has the
bits of its integer that fit into the storage, where the integer is not one bit. -/
inductive Means (width : Int) (v : EnumValue) : Entry → Prop
  | flag {name : String} {position : ℕ} (h : v.integer? = .ok (some (2 ^ position))) :
      Means width v (flag name position)
  | mask {name : String} {n : Int} {bits : ℕ} (h : v.integer? = .ok (some n))
      (hn : ∀ p : ℕ, n ≠ 2 ^ p) (hwidth : 0 ≤ width) (hbits : (bits : Int) = n % 2 ^ width.toNat) :
      Means width v (mask name bits)

/-- The entry of a value has a name of the value and says what the value means. -/
structure Stands (r : Renderer) (enumName : String) (width : Int) (v : EnumValue) (e : Entry) :
    Prop where
  isFlagName : IsFlagName r enumName v e.name
  means : e.Means width v

variable {e : Entry}

theorem Means.position?_eq (h : e.Means width v) : e.position? = v.flagBit? := by
  cases h with
  | flag h => exact (EnumValue.flagBit?_eq_some_iff.mpr h).symm
  | mask h hn =>
    rw [EnumValue.flagBit?, h]
    symm
    rw [position?, Option.eq_none_iff_forall_ne_some]
    exact fun p hp ↦ hn p (singleBit?_eq_some_iff.mp hp)

theorem filterMap_position?_eq {es : List Entry}
    (h : List.Forall₂ (Entry.Stands r enumName width) values es) :
    es.filterMap position? = values.filterMap (·.flagBit?) := by
  induction h with
  | nil => rfl
  | cons he _ ih => rw [List.filterMap_cons, List.filterMap_cons, he.means.position?_eq, ih]

end Entry

variable {l l' : FlagLayout} {f name : String} {p : ℕ}

/-- The flags and masks of a layout. -/
def entries (l : FlagLayout) : List Entry :=
  (l.bits.map fun b ↦ .flag b.1 b.2) ++ l.masks.map fun m ↦ .mask m.1 m.2

theorem map_name_entries (l : FlagLayout) : l.entries.map Entry.name = l.used := by
  simp [entries, used, Entry.name, Function.comp_def]

theorem filterMap_position?_entries (l : FlagLayout) :
    l.entries.filterMap Entry.position? = l.bits.map (·.2) := by
  simp [entries, Entry.position?, Function.comp_def, List.filterMap_map]

theorem flag_mem_entries_iff : .flag f p ∈ l.entries ↔ (f, p) ∈ l.bits := by
  simp [entries]

/-- Flags stand before masks, so that a new flag goes between the two. -/
theorem entries_addFlag (l : FlagLayout) (f : String) (p : ℕ) :
    ({ l with bits := l.bits ++ [(f, p)] } : FlagLayout).entries.Perm
      (l.entries ++ [.flag f p]) := by
  simp only [entries, List.map_append, List.append_assoc]
  exact .append_left _ List.perm_append_comm

theorem entries_addMask (l : FlagLayout) (f : String) (bits : ℕ) :
    ({ l with masks := l.masks ++ [(f, bits)] } : FlagLayout).entries =
      l.entries ++ [.mask f bits] := by
  simp [entries]

/-! ## Adding values -/

/-- **A value becomes one entry**, which says what it means. -/
theorem addValue_eq_ok (halias : v.isAlias = false) (h : addValue r enumName l v = .ok l') :
    l'.width = l.width ∧ ∃ e : Entry, e.Stands r enumName l.width v ∧
      l'.entries.Perm (l.entries ++ [e]) := by
  obtain ⟨source, short, long, value, hcandidates, hvalue, hadded⟩ := addValue_cases h
  obtain ⟨hname, hlong, rfl⟩ := EnumMembers.candidates_eq_ok hcandidates
  have hinteger := EnumMembers.integer_eq_ok halias hvalue
  have hchoice : IsFlagName r enumName v
      (uniqueName (r.enumValueName enumName source true) long l.used) :=
    ⟨source, long, hname, hlong, (uniqueName_spec _ _ _).2⟩
  obtain ⟨p, hp, rfl⟩ | ⟨hnone, hwidth, rfl⟩ := hadded
  · have hbit : v.integer? = .ok (some (2 ^ p)) := by
      obtain hp | ⟨-, hp⟩ := Option.or_eq_some_iff.mp hp
      · obtain ⟨position, hbit, rfl⟩ := Option.map_eq_some_iff.mp hp
        exact EnumValue.flagBit?_eq_some_iff.mp (EnumValue.flagBit?_of_bit? hbit hinteger)
      · exact singleBit?_eq_some_iff.mp hp ▸ hinteger
    exact ⟨rfl, .flag _ _, ⟨hchoice, .flag hbit⟩, entries_addFlag _ _ _⟩
  · have hvalue : ∀ p : ℕ, value ≠ 2 ^ p := fun p hp ↦
      absurd (hnone.symm.trans (singleBit?_eq_some_iff.mpr hp)) (by simp)
    exact ⟨rfl, .mask _ _, ⟨hchoice, .mask hinteger hvalue hwidth (l.natCast_truncate value)⟩,
      entries_addMask _ _ _ ▸ .refl _⟩

theorem foldlM_addValue_eq_ok (halias : ∀ v ∈ values, v.isAlias = false)
    (h : values.foldlM (addValue r enumName) l = .ok l') :
    l'.width = l.width ∧ ∃ es, List.Forall₂ (Entry.Stands r enumName l.width) values es ∧
      l'.entries.Perm (l.entries ++ es) := by
  induction values generalizing l with
  | nil =>
    rw [List.foldlM_nil, Result.pure_eq_ok_iff] at h
    exact ⟨h ▸ rfl, [], .nil, by rw [List.append_nil, h]⟩
  | cons v values ih =>
    rw [List.forall_mem_cons] at halias
    rw [List.foldlM_cons] at h
    obtain ⟨l₁, hstep, h⟩ := Result.bind_eq_ok_iff.mp h
    obtain ⟨hwidth, e, he, hperm⟩ := addValue_eq_ok halias.1 hstep
    obtain ⟨hwidth', es, hes, hperm'⟩ := ih halias.2 h
    refine ⟨hwidth'.trans hwidth, e :: es, .cons he (hwidth ▸ hes), ?_⟩
    calc l'.entries.Perm (l₁.entries ++ es) := hperm'
      _ |>.Perm ((l.entries ++ [e]) ++ es) := hperm.append_right es
      _ = l.entries ++ e :: es := by rw [List.append_assoc, List.singleton_append]

/-- The values of an enum correspond to the entries of its layout. Sorting the flags changes no
entry. -/
theorem exists_stands_ofEnum (h : ofEnum r name width decl = .ok l) : l.width = width ∧
    ∃ es, List.Forall₂ (Entry.Stands r decl.name width)
      (decl.values.filter fun v ↦ !v.isAlias) es ∧ es.Perm l.entries := by
  obtain ⟨l₁, hvalues, h⟩ := Result.bind_eq_ok_iff.mp h
  obtain rfl := Result.pure_eq_ok_iff.mp h
  obtain ⟨hwidth, es, hes, hperm⟩ := foldlM_addValue_eq_ok (by simp) hvalues
  refine ⟨hwidth, es, hes, ?_⟩
  calc es.Perm l₁.entries := by simpa [entries] using hperm.symm
    _ |>.Perm _ := ((List.mergeSort_perm _ _).symm.map _).append_right _

theorem pairwise_bits (h : ofEnum r name width decl = .ok l) :
    l.bits.Pairwise fun a b ↦ a.2 ≤ b.2 := by
  obtain ⟨l₁, -, h⟩ := Result.bind_eq_ok_iff.mp h
  obtain rfl := Result.pure_eq_ok_iff.mp h
  refine (List.pairwise_mergeSort ?_ ?_ l₁.bits).imp fun hle ↦ of_decide_eq_true hle
  · intro a b c hab hbc
    exact decide_eq_true ((of_decide_eq_true hab).trans (of_decide_eq_true hbc))
  · intro a b
    simpa using le_total a.2 b.2

/-- The layout of values whose bits ascend. -/
theorem ofEnum_of_pairwise
    (h : (decl.values.filter fun v ↦ !v.isAlias).foldlM (addValue r decl.name)
      { name, width } = .ok l)
    (hsorted : l.bits.Pairwise fun a b ↦ a.2 ≤ b.2) : ofEnum r name width decl = .ok l := by
  rw [ofEnum, h, Result.ok_bind, Result.pure_eq_ok_iff]
  rw [List.mergeSort_of_pairwise (hsorted.imp fun hle ↦ decide_eq_true hle)]

end FlagLayout

open FlagLayout

variable {c : Context} {l : FlagLayout} {block name : String}

/-- **Every value is one entry.** Where an enum is found under a name, its values that are no
aliases correspond one by one to the flags and masks of the layout, exactly if the name is not empty
or there are no such values. A flag is the only bit of the integer of its value; a mask has the bits
of its integer that fit into the storage, and this integer is not one bit. No two entries have the
same name, and the flags are sorted by their bits. -/
theorem entries_match_values (hdecl : c.document.enums.get? block = some decl)
    (h : c.flagLayout name (some block) width = .ok l) :
    ((∃ es, List.Forall₂ (Entry.Stands c.renderer decl.name width)
      (decl.values.filter fun v ↦ !v.isAlias) es ∧ es.Perm l.entries) ↔
        block ≠ "" ∨ ∀ v ∈ decl.values, v.isAlias = true) ∧
    (l.entries.map Entry.name).Nodup ∧
    l.bits.Pairwise fun a b ↦ a.2 ≤ b.2 := by
  rw [Context.flagLayout_of_get? hdecl] at h
  by_cases hblock : block = ""
  · rw [if_pos hblock] at h
    obtain rfl := Except.ok.inj h
    refine ⟨?_, List.nodup_nil, .nil⟩
    -- Nothing is left of the enum, so it must not have had anything to lose.
    simp only [hblock, ne_eq, not_true_eq_false, false_or]
    constructor
    · rintro ⟨es, hes, hperm⟩
      obtain rfl := hperm.eq_nil
      simpa [List.forall₂_nil_right_iff, List.filter_eq_nil_iff] using hes
    · intro halias
      exact ⟨[], by simpa [List.forall₂_nil_right_iff, List.filter_eq_nil_iff] using halias, .nil⟩
  · rw [if_neg hblock] at h
    exact ⟨iff_of_true (exists_stands_ofEnum h).2 (Or.inl hblock),
      map_name_entries l ▸ nodup_used h, pairwise_bits h⟩

/-- A position and integers, and two values of one bit whose short names are the same. -/
def mixedEnum : EnumDecl where
  name := "XrMode"
  kind := "bitmask"
  values := [
    { name := some "XR_MODE_SHOW_BIT", meaning := .bit 2, origin := "core" },
    { name := some "XR_MODE_NONE", meaning := .number 0, origin := "core" },
    { name := some "XR_MODE_OLD", meaning := .aliasOf "XR_MODE_SHOW", origin := "core" },
    { name := some "XR_MODE_SHOW", meaning := .number 8, origin := "core" },
    { name := some "XR_MODE_ALL", meaning := .number (-1), origin := "core" }]

def mixedLayout : FlagLayout where
  name := "Mode"
  width := 8
  bits := [("show", 2), ("xr_mode_show", 3)]
  masks := [("none", 0), ("all", 255)]

/-- The alias has no entry, and a negative integer has all bits of the storage. -/
theorem entries_match_values_mixed :
    mixedEnum.context.document.enums.get? "XrMode" = some mixedEnum ∧
      mixedEnum.context.flagLayout "Mode" (some "XrMode") 8 = .ok mixedLayout ∧
      ∃ es, List.Forall₂ (Entry.Stands ⟨[]⟩ "XrMode" 8)
        (mixedEnum.values.filter fun v ↦ !v.isAlias) es ∧ es.Perm mixedLayout.entries := by
  have hdecl : mixedEnum.context.document.enums.get? "XrMode" = some mixedEnum :=
    mixedEnum.get?_context
  have hlayout : mixedEnum.context.flagLayout "Mode" (some "XrMode") 8 = .ok mixedLayout := by
    rw [Context.flagLayout_of_get? hdecl, if_neg (by decide)]
    exact ofEnum_of_pairwise (by decide +kernel) (by decide)
  exact ⟨hdecl, hlayout, (entries_match_values hdecl hlayout).1.mpr (Or.inl (by decide))⟩

/-- A set of flags whose bits are named by an enum without a name. -/
def unnamedRegistry : Xml.Element :=
  ⟨"registry", [], "", [
    ⟨"types", [], "", [
      ⟨"type", [("category", "bitmask"), ("requires", "")], "", [
        ⟨"type", [], "XrFlags64", [], ""⟩, ⟨"name", [], "XrModeFlags", [], ""⟩], ""⟩], ""⟩,
    ⟨"enums", [("type", "bitmask")], "", [
      ⟨"enum", [("name", "XR_MODE_SHOW_BIT"), ("bitpos", "0")], "", [], ""⟩], ""⟩], ""⟩

/-- The enum of `unnamedRegistry`. -/
def unnamedEnum : EnumDecl where
  name := ""
  kind := "bitmask"
  values := [{ name := some "XR_MODE_SHOW_BIT", meaning := .bit 0, origin := "core" }]

def unnamedType : TypeDecl := .bitmask "XrModeFlags" 64 (some "")

def unnamedContext : Context where
  document := {
    tags := []
    types := Table.ofList [(some "XrModeFlags", unnamedType)]
    enums := Table.ofList [("", unnamedEnum)]
    commands := .empty
    commandAliases := .empty
    apiConstants := .empty
    features := []
    extensions := []
    origins := .empty
    version := "unknown" }
  graph := {
    order := [unnamedType]
    canonical := Table.ofList [(some "XrModeFlags", some "XrModeFlags")]
    aliases := [] }
  renderer := ⟨[]⟩
  partitions := .empty
  flagOwners := .empty

set_option maxRecDepth 20000 in
/-- The only flag is lost, because the name of its enum is empty. -/
theorem flag_lost_unnamed :
    Document.ofElement unnamedRegistry = .ok unnamedContext.document ∧
      Context.ofDocument unnamedContext.document = .ok unnamedContext ∧
      unnamedContext.document.enums.get? "" = some unnamedEnum ∧
      (unnamedEnum.values.map (·.name)).Nodup ∧
      (∀ v ∈ unnamedEnum.values, ∀ bit, v.bit? = some bit → 0 ≤ bit) ∧
      unnamedContext.flagLayout "ModeFlags" (some "") 64 =
        .ok { name := "ModeFlags", width := 64 } ∧
      ¬∃ es, List.Forall₂ (Entry.Stands ⟨[]⟩ "" 64)
        (unnamedEnum.values.filter fun v ↦ !v.isAlias) es ∧
        es.Perm (entries { name := "ModeFlags", width := 64 }) := by
  refine ⟨by with_unfolding_all rfl, by with_unfolding_all rfl, rfl, by decide, by decide, rfl, ?_⟩
  rintro ⟨es, hes, hperm⟩
  obtain rfl := hperm.eq_nil
  exact absurd hes.length_eq (by decide)

end XrBindings
