import Mathlib.Data.List.Induction
import XrBindings.Proofs.Registry.EnumBits

/-!
# The order of mentions

An enum is filled from mentions of its values. The first mention of a name is kept, and the others
have to agree with it. Agreement is a matter of integers and does not depend on the order. Whether
two names claim one bit does: positions are compared with positions of kept mentions only, and where
a name is mentioned both with a position and with the integer of that bit, the order decides which
of the two is kept.

The run is described once, by `ofMentions_eq_ok_iff`: an order is accepted exactly if the mentions
agree and the first ones have different bit positions. What depends on the order is read off it.
-/

namespace XrBindings

variable {d d' d₁ d₂ : EnumDecl} {mentions order order' : List EnumValue} {v w : EnumValue}

/-! ## First mentions -/

/-- The first mention of each name. -/
def firstMentions : List EnumValue → List EnumValue
  | [] => []
  | v :: rest => v :: (firstMentions rest).filter fun w ↦ w.name != v.name

theorem firstMentions_sublist (mentions : List EnumValue) :
    (firstMentions mentions).Sublist mentions := by
  induction mentions with
  | nil => exact .refl _
  | cons v rest ih => exact (List.filter_sublist.trans ih).cons_cons v

theorem mem_of_mem_firstMentions (hv : v ∈ firstMentions mentions) : v ∈ mentions :=
  (firstMentions_sublist mentions).subset hv

theorem nodup_name_firstMentions (mentions : List EnumValue) :
    ((firstMentions mentions).map (·.name)).Nodup := by
  induction mentions with
  | nil => exact List.nodup_nil
  | cons v rest ih =>
    rw [firstMentions, List.map_cons, List.nodup_cons]
    refine ⟨?_, ih.sublist (List.filter_sublist.map _)⟩
    intro hmem
    obtain ⟨w, hw, hname⟩ := List.mem_map.mp hmem
    simpa [hname] using (List.mem_filter.mp hw).2

theorem exists_mem_firstMentions (hv : v ∈ mentions) :
    ∃ u ∈ firstMentions mentions, u.name = v.name := by
  induction mentions with
  | nil => exact absurd hv List.not_mem_nil
  | cons u rest ih =>
    by_cases hname : u.name = v.name
    · exact ⟨u, List.mem_cons_self, hname⟩
    · rcases List.mem_cons.mp hv with rfl | hv
      · exact absurd rfl hname
      · obtain ⟨t, ht, htname⟩ := ih hv
        refine ⟨t, List.mem_cons_of_mem u (List.mem_filter.mpr ⟨ht, ?_⟩), htname⟩
        simpa [htname] using Ne.symm hname

/-- The first mentions of a second list count where the first list does not mention the name. -/
theorem firstMentions_append (before after : List EnumValue) :
    firstMentions (before ++ after) = firstMentions before ++
      (firstMentions after).filter fun w ↦ decide (w.name ∉ before.map (·.name)) := by
  induction before with
  | nil => simp [firstMentions]
  | cons v rest ih =>
    rw [List.cons_append, firstMentions, firstMentions, ih, List.filter_append, List.filter_filter,
      List.cons_append]
    refine congrArg (fun l ↦ v :: (_ ++ l)) (List.filter_congr fun w _ ↦ ?_)
    by_cases hname : w.name = v.name <;> simp [hname]

theorem firstMentions_append_singleton (before : List EnumValue) (v : EnumValue) :
    firstMentions (before ++ [v]) =
      if v.name ∈ before.map (·.name) then firstMentions before
      else firstMentions before ++ [v] := by
  rw [firstMentions_append]
  split
  · next hmem => simp [firstMentions, List.mem_map.mp hmem]
  · next hnew =>
    congr 1
    simpa [firstMentions] using hnew

/-! ## The run -/

/-- Mentions of one name agree. -/
def Agreeing (mentions : List EnumValue) : Prop :=
  mentions.Pairwise fun v w ↦ v.name = w.name → v.Agrees w

/-- An enum without values, filled from mentions. -/
def EnumDecl.ofMentions (d : EnumDecl) (mentions : List EnumValue) : Result EnumDecl :=
  mentions.foldlM EnumDecl.addValue { d with values := [] }

theorem Agreeing.perm (h : Agreeing mentions) (hperm : order.Perm mentions) : Agreeing order :=
  (hperm.pairwise_iff fun h hname ↦ (h hname.symm).symm).mpr h

theorem Agreeing.eq_or_agrees (h : Agreeing mentions) (hv : v ∈ mentions) (hw : w ∈ mentions)
    (hname : v.name = w.name) : v = w ∨ v.Agrees w := by
  have : Std.Symm fun v w : EnumValue ↦ v.name = w.name → v.Agrees w :=
    ⟨fun _ _ h hname ↦ (h hname.symm).symm⟩
  by_cases hvw : v = w
  · exact Or.inl hvw
  · exact Or.inr (List.Pairwise.forall h hv hw hvw hname)

theorem agreeing_append_singleton_iff :
    Agreeing (mentions ++ [v]) ↔
      Agreeing mentions ∧ ∀ u ∈ mentions, u.name = v.name → u.Agrees v := by
  simp [Agreeing, List.pairwise_append]

/-- **One more mention.** Where its name is known it has to agree with what was mentioned before,
otherwise its bit position has to be new. -/
theorem addValue_firstMentions_iff (hagreeing : Agreeing mentions)
    (hbits : ((firstMentions mentions).filterMap (·.bit?)).Nodup) :
    { d with values := firstMentions mentions }.addValue v = .ok d' ↔
      Agreeing (mentions ++ [v]) ∧
        ((firstMentions (mentions ++ [v])).filterMap (·.bit?)).Nodup ∧
        d' = { d with values := firstMentions (mentions ++ [v]) } := by
  rw [EnumDecl.addValue_eq_ok_iff, agreeing_append_singleton_iff, firstMentions_append_singleton]
  dsimp only
  by_cases hmem : v.name ∈ mentions.map (·.name)
  · rw [if_pos hmem]
    obtain ⟨u, hu, hname⟩ := List.mem_map.mp hmem
    obtain ⟨t, ht, htname⟩ := exists_mem_firstMentions hu
    have hkept : v.name ∈ (firstMentions mentions).map (·.name) :=
      List.mem_map.mpr ⟨t, ht, htname.trans hname⟩
    constructor
    · rintro (⟨known, hfind, hagrees, rfl⟩ | ⟨hnew, -, -⟩)
      · have hknown : known ∈ mentions :=
          mem_of_mem_firstMentions (List.mem_of_find?_eq_some hfind)
        have hknownName : known.name = v.name := by simpa using List.find?_some hfind
        refine ⟨⟨hagreeing, fun u hu huname ↦ ?_⟩, hbits, rfl⟩
        rcases hagreeing.eq_or_agrees hu hknown (huname.trans hknownName.symm) with rfl | h
        · exact hagrees
        · exact h.trans hagrees
      · exact absurd hkept hnew
    · rintro ⟨⟨-, hagrees⟩, -, rfl⟩
      cases hfind : (firstMentions mentions).find? (·.name == v.name) with
      | none =>
        exact absurd hkept (EnumDecl.find?_name_eq_none_iff
          (d := { d with values := firstMentions mentions }).mp hfind)
      | some known =>
        refine Or.inl ⟨known, rfl, hagrees known ?_ ?_, rfl⟩
        · exact mem_of_mem_firstMentions (List.mem_of_find?_eq_some hfind)
        · simpa using List.find?_some hfind
  · rw [if_neg hmem]
    have hnew : v.name ∉ (firstMentions mentions).map (·.name) :=
      fun h ↦ hmem (((firstMentions_sublist mentions).map _).subset h)
    have hfree : ((firstMentions mentions ++ [v]).filterMap (·.bit?)).Nodup ↔
        ∀ position, v.bit? = some position →
          position ∉ (firstMentions mentions).filterMap (·.bit?) := by
      rw [List.filterMap_append]
      cases hbit : v.bit? with
      | none => simp [hbits, hbit]
      | some position =>
        have hlast : [v].filterMap (·.bit?) = [position] := by simp [hbit]
        rw [hlast, (List.perm_append_singleton _ _).nodup_iff, List.nodup_cons]
        simp [hbits]
    rw [hfree]
    constructor
    · rintro (⟨known, hfind, -, -⟩ | ⟨-, hposition, rfl⟩)
      · refine absurd (List.mem_map.mpr ⟨known, List.mem_of_find?_eq_some hfind, ?_⟩) hnew
        simpa using List.find?_some hfind
      · refine ⟨⟨hagreeing, fun u hu huname ↦ ?_⟩, hposition, rfl⟩
        exact absurd (List.mem_map.mpr ⟨u, hu, huname⟩) hmem
    · rintro ⟨-, hposition, rfl⟩
      exact Or.inr ⟨hnew, hposition, rfl⟩

/-- **Which orders are accepted.** Those in which the mentions of each name agree and the first
mentions have different bit positions. The first mentions are then the values. -/
theorem ofMentions_eq_ok_iff :
    d.ofMentions mentions = .ok d' ↔
      Agreeing mentions ∧ ((firstMentions mentions).filterMap (·.bit?)).Nodup ∧
        d' = { d with values := firstMentions mentions } := by
  induction mentions using List.reverseRecOn generalizing d' with
  | nil =>
    rw [EnumDecl.ofMentions, List.foldlM_nil, Result.pure_eq_ok_iff]
    simp [Agreeing, firstMentions, eq_comm]
  | append_singleton mentions v ih =>
    have hlast : d.ofMentions (mentions ++ [v]) =
        d.ofMentions mentions >>= fun d₁ ↦ d₁.addValue v := by
      simp [EnumDecl.ofMentions]
    rw [hlast, Result.bind_eq_ok_iff]
    constructor
    · rintro ⟨d₁, hbefore, h⟩
      obtain ⟨hagreeing, hbits, rfl⟩ := ih.mp hbefore
      exact (addValue_firstMentions_iff hagreeing hbits).mp h
    · intro h
      have hagreeing := (agreeing_append_singleton_iff.mp h.1).1
      have hbits : ((firstMentions mentions).filterMap (·.bit?)).Nodup := by
        refine h.2.1.sublist (List.Sublist.filterMap _ ?_)
        rw [firstMentions_append]
        exact List.sublist_append_left _ _
      exact ⟨_, ih.mpr ⟨hagreeing, hbits, rfl⟩,
        (addValue_firstMentions_iff hagreeing hbits).mpr h⟩

/-! ## Shared bits -/

/-- Two names are mentioned with one bit position. -/
def ShareBit (mentions : List EnumValue) : Prop :=
  ∃ v ∈ mentions, ∃ w ∈ mentions, v.name ≠ w.name ∧
    ∃ position, v.bit? = some position ∧ w.bit? = some position

/-- The mentions of the names that are mentioned with bit positions only. -/
def givenByBits (mentions : List EnumValue) : List EnumValue :=
  mentions.filter fun v ↦ mentions.all fun u ↦ u.name != v.name || u.bit?.isSome

theorem mem_givenByBits_iff : v ∈ givenByBits mentions ↔
    v ∈ mentions ∧ ∀ u ∈ mentions, u.name = v.name → u.bit? ≠ none := by
  simp [givenByBits, Option.isSome_iff_ne_none, imp_iff_not_or]

theorem EnumValue.Agrees.bit?_eq (h : v.Agrees w) (hv : v.bit? ≠ none) (hw : w.bit? ≠ none) :
    v.bit? = w.bit? := by
  obtain ⟨p, hp⟩ := Option.ne_none_iff_exists'.mp hv
  obtain ⟨q, hq⟩ := Option.ne_none_iff_exists'.mp hw
  obtain ⟨⟨k, hvk, hwk⟩, -⟩ := h
  cases k with
  | none =>
    rw [integer?_eq_ok_none_iff] at hvk
    rw [bit?] at hp
    rw [isAlias] at hvk
    split at hp <;> simp_all
  | some k =>
    have hvbit : v.IsBit p.toNat := flagBit?_eq_some_iff.mp (flagBit?_of_bit? hp hvk)
    have hwbit : w.IsBit p.toNat := hwk.trans (hvk.symm.trans hvbit)
    rw [hp, hq, (isBit_iff_of_bit? hp).mp hvbit, (isBit_iff_of_bit? hq).mp hwbit]

theorem nodup_bit?_firstMentions (h : ¬ShareBit (firstMentions mentions)) :
    ((firstMentions mentions).filterMap (·.bit?)).Nodup := by
  have hnames := nodup_name_firstMentions mentions
  rw [nodup_filterMap_iff hnames.of_map]
  intro v hv w hw hne position hvp hwp
  refine h ⟨v, hv, w, hw, fun hname ↦ hne ?_, position, hvp, hwp⟩
  exact List.inj_on_of_nodup_map hnames hv hw hname

theorem not_shareBit_of_nodup (h : ((firstMentions mentions).filterMap (·.bit?)).Nodup) :
    ¬ShareBit (firstMentions mentions) := by
  rintro ⟨v, hv, w, hw, hne, position, hvp, hwp⟩
  rw [nodup_filterMap_iff (nodup_name_firstMentions mentions).of_map] at h
  exact h v hv w hw (fun heq ↦ hne (congrArg (·.name) heq)) position hvp hwp

/-- If names share a bit position, in some order the mentions with this position come first. -/
theorem ShareBit.exists_perm (h : ShareBit mentions) :
    ∃ order, order.Perm mentions ∧ ShareBit (firstMentions order) := by
  obtain ⟨v, hv, w, hw, hne, position, hvp, hwp⟩ := h
  have hvw : w ≠ v := fun heq ↦ hne (congrArg (·.name) heq.symm)
  have hw' : w ∈ mentions.erase v := (List.mem_erase_of_ne hvw).mpr hw
  refine ⟨v :: w :: (mentions.erase v).erase w, ?_, v, ?_, w, ?_, hne, position, hvp, hwp⟩
  · exact ((List.perm_cons_erase hw').symm.cons v).trans (List.perm_cons_erase hv).symm
  · exact List.mem_cons_self
  · simp [firstMentions, hne.symm]

/-- In some order the mentions without a bit position come first. Names then share a position among
the first mentions only if neither is mentioned in another way. -/
theorem exists_perm_shareBit_givenByBits (mentions : List EnumValue) :
    ∃ order, order.Perm mentions ∧
      (ShareBit (firstMentions order) → ShareBit (givenByBits mentions)) := by
  set numbers := mentions.filter (·.bit?.isNone) with hnumbers
  set bits := mentions.filter (fun v ↦ !v.bit?.isNone) with hbits
  refine ⟨numbers ++ bits, List.filter_append_perm _ _, ?_⟩
  have hgiven : ∀ v ∈ firstMentions (numbers ++ bits), v.bit? ≠ none →
      v ∈ givenByBits mentions := by
    intro v hv hbit
    rw [firstMentions_append, List.mem_append] at hv
    rcases hv with hv | hv
    · have hnone := (List.mem_filter.mp (mem_of_mem_firstMentions hv)).2
      exact absurd (Option.isNone_iff_eq_none.mp hnone) hbit
    · obtain ⟨hv, hnew⟩ := List.mem_filter.mp hv
      refine mem_givenByBits_iff.mpr ⟨(List.mem_filter.mp (mem_of_mem_firstMentions hv)).1, ?_⟩
      intro u hu hname hnone
      refine of_decide_eq_true hnew (List.mem_map.mpr ⟨u, List.mem_filter.mpr ⟨hu, ?_⟩, hname⟩)
      rw [hnone, Option.isNone_none]
  rintro ⟨v, hv, w, hw, hne, position, hvp, hwp⟩
  exact ⟨v, hgiven v hv (by simp [hvp]), w, hgiven w hw (by simp [hwp]), hne, position, hvp, hwp⟩

/-- Names that are mentioned with bit positions only share one in every order. -/
theorem shareBit_firstMentions_of_givenByBits (hagreeing : Agreeing mentions)
    (hperm : order.Perm mentions) (h : ShareBit (givenByBits mentions)) :
    ShareBit (firstMentions order) := by
  have hkept : ∀ v ∈ givenByBits mentions,
      ∃ u ∈ firstMentions order, u.name = v.name ∧ u.bit? = v.bit? := by
    intro v hv
    obtain ⟨hv, honly⟩ := mem_givenByBits_iff.mp hv
    obtain ⟨u, hu, hname⟩ := exists_mem_firstMentions (hperm.mem_iff.mpr hv)
    have humem : u ∈ mentions := hperm.mem_iff.mp (mem_of_mem_firstMentions hu)
    refine ⟨u, hu, hname, ?_⟩
    rcases hagreeing.eq_or_agrees humem hv hname with rfl | hagrees
    · rfl
    · exact hagrees.bit?_eq (honly u humem hname) (honly v hv rfl)
  obtain ⟨v, hv, w, hw, hne, position, hvp, hwp⟩ := h
  obtain ⟨v', hv', hvname, hvbit⟩ := hkept v hv
  obtain ⟨w', hw', hwname, hwbit⟩ := hkept w hw
  refine ⟨v', hv', w', hw', ?_, position, hvbit.trans hvp, hwbit.trans hwp⟩
  rwa [hvname, hwname]

/-! ## All orders -/

/-- What an enum says about a name: its integer, or the name that it follows. -/
def EnumValue.reading (v : EnumValue) : Option String × Result (Option Int) × Option String :=
  (v.name, v.integer?, v.aliasTarget?)

theorem EnumValue.Agrees.reading_eq (h : v.Agrees w) (hname : v.name = w.name) :
    v.reading = w.reading := by
  rw [reading, reading, hname, h.integer?_eq, h.2]

/-- The first mentions say the same as all mentions, if these agree. -/
theorem mem_reading_firstMentions_iff (hagreeing : Agreeing mentions)
    {t : Option String × Result (Option Int) × Option String} :
    t ∈ (firstMentions mentions).map (·.reading) ↔ t ∈ mentions.map (·.reading) := by
  constructor
  · intro h
    exact ((firstMentions_sublist mentions).map _).subset h
  · intro h
    obtain ⟨v, hv, rfl⟩ := List.mem_map.mp h
    obtain ⟨u, hu, hname⟩ := exists_mem_firstMentions hv
    refine List.mem_map.mpr ⟨u, hu, ?_⟩
    rcases hagreeing.eq_or_agrees (mem_of_mem_firstMentions hu) hv hname with rfl | hagrees
    · rfl
    · exact hagrees.reading_eq hname

/-- An order is rejected exactly if mentions of one name disagree or first mentions share a bit. -/
theorem exists_ofMentions_eq_ok_iff :
    (∃ d', d.ofMentions order = .ok d') ↔ Agreeing order ∧ ¬ShareBit (firstMentions order) := by
  simp only [ofMentions_eq_ok_iff]
  constructor
  · rintro ⟨-, hagreeing, hbits, -⟩
    exact ⟨hagreeing, not_shareBit_of_nodup hbits⟩
  · rintro ⟨hagreeing, hshare⟩
    exact ⟨_, hagreeing, nodup_bit?_firstMentions hshare, rfl⟩

/-- **Every order or none.** Whether mentions are accepted does not depend on their order exactly
if, as soon as they agree and two names share a bit position, two names that are mentioned with bit
positions only share one. In all orders that are accepted the enum says the same. -/
theorem acceptance_orderFree_iff (d : EnumDecl) (mentions : List EnumValue) :
    ((∀ order, order.Perm mentions → ∃ e, d.ofMentions order = .error e) ∨
        (∀ order, order.Perm mentions → ∃ d', d.ofMentions order = .ok d') ↔
      (Agreeing mentions → ShareBit mentions → ShareBit (givenByBits mentions))) ∧
    ∀ order order' d₁ d₂, order.Perm mentions → order'.Perm mentions →
      d.ofMentions order = .ok d₁ → d.ofMentions order' = .ok d₂ →
        ∀ t, t ∈ d₁.values.map (·.reading) ↔ t ∈ d₂.values.map (·.reading) := by
  simp only [Result.exists_eq_error_iff, exists_ofMentions_eq_ok_iff]
  refine ⟨⟨?_, ?_⟩, ?_⟩
  · intro hfree hagreeing hshare
    rcases hfree with hnone | hall
    · obtain ⟨order, hperm, hgiven⟩ := exists_perm_shareBit_givenByBits mentions
      by_contra hapart
      exact hnone order hperm ⟨hagreeing.perm hperm, fun h ↦ hapart (hgiven h)⟩
    · obtain ⟨order, hperm, hfirst⟩ := hshare.exists_perm
      exact absurd hfirst (hall order hperm).2
  · intro h
    by_cases hagreeing : Agreeing mentions
    · by_cases hshare : ShareBit mentions
      · refine Or.inl fun order hperm hok ↦ hok.2 ?_
        exact shareBit_firstMentions_of_givenByBits hagreeing hperm (h hagreeing hshare)
      · refine Or.inr fun order hperm ↦ ⟨hagreeing.perm hperm, ?_⟩
        rintro ⟨v, hv, w, hw, hshared⟩
        exact hshare ⟨v, hperm.mem_iff.mp (mem_of_mem_firstMentions hv), w,
          hperm.mem_iff.mp (mem_of_mem_firstMentions hw), hshared⟩
    · exact Or.inl fun order hperm hok ↦ hagreeing (hok.1.perm hperm.symm)
  · intro order order' d₁ d₂ hperm hperm' h₁ h₂ t
    obtain ⟨hagreeing, -, rfl⟩ := ofMentions_eq_ok_iff.mp h₁
    obtain ⟨hagreeing', -, rfl⟩ := ofMentions_eq_ok_iff.mp h₂
    rw [mem_reading_firstMentions_iff hagreeing, mem_reading_firstMentions_iff hagreeing']
    exact ((hperm.trans hperm'.symm).map _).mem_iff

/-- Two names of one bit, one of which is mentioned with the integer of the bit as well. -/
def tornMentions : List EnumValue := [
  { name := some "XR_MODE_SHOW_BIT", meaning := .number 1, origin := "core" },
  { name := some "XR_MODE_SHOW_BIT", meaning := .bit 0, origin := "core" },
  { name := some "XR_MODE_SHARE_BIT", meaning := .bit 0, origin := "core" }]

/-- The enum that `tornMentions` are made of. -/
def tornEnum : EnumDecl where
  name := "XrModeFlagBits"
  kind := "bitmask"
  values := []

/-- The mentions are accepted, but not if the bit position of the first name comes before its
integer. -/
theorem acceptance_tornMentions :
    (∀ v ∈ tornMentions, ∀ position, v.bit? = some position → 0 ≤ position) ∧
      (∃ d', tornEnum.ofMentions tornMentions = .ok d') ∧
      ∃ order, order.Perm tornMentions ∧ tornEnum.ofMentions order =
        reject (.sharedBit 0 "XrModeFlagBits" (some "XR_MODE_SHOW_BIT")
          (some "XR_MODE_SHARE_BIT")) := by
  refine ⟨by decide, ⟨_, rfl⟩, ?_⟩
  exact ⟨[⟨some "XR_MODE_SHOW_BIT", .bit 0, "core"⟩, ⟨some "XR_MODE_SHOW_BIT", .number 1, "core"⟩,
    ⟨some "XR_MODE_SHARE_BIT", .bit 0, "core"⟩], .swap _ _ _, rfl⟩

end XrBindings
