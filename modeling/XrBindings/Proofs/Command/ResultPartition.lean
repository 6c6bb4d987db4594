import XrBindings.Command.ResultPartition
import XrBindings.Proofs.Chain
import XrBindings.Proofs.Registry.Accepted

/-!
# The split of an enum into success and failure

An alias is placed by a walk that stops at names that were placed before, so where it ends depends
on what was placed already. The side on which the alias is placed does not: it is the side of the
value at the end of the chain. What carries this through the aliases is that names on the side of
success never have a chain to an error, so a walk may stop at any of them.
-/

namespace XrBindings

open Relation XrBindings.Xml

/-- A value of an enum is another spelling of a name. -/
def ValueAliasOf (decl : EnumDecl) (a b : Option String) : Prop :=
  ∃ v ∈ decl.values, v.name = a ∧ ∃ target, v.aliasTarget? = some target ∧ b = some target

/-- A list of names mentions a name. -/
def Mentions (names : List String) (name : Option String) : Prop := ∃ n ∈ names, name = some n

/-- A value that is no alias reports a failure: it always does, or a command lists it as an error,
or no command lists it as a success and it is negative. -/
def ReportsFailure (codes : ResultPartition.Listed) (v : EnumValue) : Prop :=
  Mentions pendingOverrides v.name ∨ Mentions codes.error v.name ∨
    ¬Mentions codes.success v.name ∧ ∃ n, v.integer? = .ok (some n) ∧ n < 0

theorem EnumValue.isAlias_iff {v : EnumValue} :
    v.isAlias = true ↔ ∃ target, v.aliasTarget? = some target := by
  rw [EnumValue.isAlias, EnumValue.aliasTarget?]
  cases v.meaning <;> simp

namespace ResultPartition

variable {decl : EnumDecl} {codes : Listed} {errors : List (Option String)}
  {p : ResultPartition} {v w : EnumValue} {a b x : Option String}

/-! ## Values that are no aliases -/

theorem map_contains_iff_mentions {names : List String} {name : Option String} :
    (name.map names.contains == some true) = true ↔ Mentions names name := by
  cases name <;> simp [Mentions]

theorem map_contains_or_iff_mentions {names names' : List String} {name : Option String} :
    (name.map (fun n ↦ names.contains n || names'.contains n) == some true) = true
      ↔ Mentions names name ∨ Mentions names' name := by
  cases name <;> simp [Mentions]

theorem mentions_flatMap_iff {α : Type} {l : List α} {f : α → List String} {name : Option String} :
    Mentions (l.flatMap f) name ↔ ∃ x ∈ l, Mentions (f x) name := by
  simp only [Mentions, List.mem_flatMap]
  constructor
  · rintro ⟨n, ⟨x, hx, hn⟩, hname⟩
    exact ⟨x, hx, n, hn, hname⟩
  · rintro ⟨x, hx, n, hn, hname⟩
    exact ⟨n, ⟨x, hx, hn⟩, hname⟩

theorem valueIsError_spec {isError : Bool} (h : valueIsError codes v = .ok isError) :
    isError = true ↔ ReportsFailure codes v := by
  rw [valueIsError] at h
  split at h
  · next hlisted =>
    rw [map_contains_or_iff_mentions] at hlisted
    obtain rfl := Except.ok.inj h
    simp only [ReportsFailure, true_iff]
    exact hlisted.imp_right Or.inl
  · next hlisted =>
    rw [map_contains_or_iff_mentions, not_or] at hlisted
    simp only [ReportsFailure, hlisted.1, hlisted.2, false_or]
    split at h
    · next hsuccess =>
      obtain rfl := Except.ok.inj h
      simp [map_contains_iff_mentions.mp hsuccess]
    · next hsuccess =>
      rw [map_contains_iff_mentions] at hsuccess
      obtain ⟨n, hn, rfl⟩ := Result.map_eq_ok_iff.mp h
      rw [hn]
      cases n <;> simp [hsuccess]

/-- A value is listed, or it has an integer that can be asked for its sign. -/
def CanBeJudged (codes : Listed) (v : EnumValue) : Prop :=
  Mentions pendingOverrides v.name ∨ Mentions codes.error v.name ∨ Mentions codes.success v.name ∨
    ∀ bit, v.bit? = some bit → 0 ≤ bit

theorem exists_valueIsError_eq_ok_iff :
    (∃ isError, valueIsError codes v = .ok isError) ↔ CanBeJudged codes v := by
  rw [valueIsError, CanBeJudged, ← or_assoc, ← map_contains_or_iff_mentions]
  split
  · next hlisted => exact iff_of_true ⟨_, rfl⟩ (Or.inl hlisted)
  · next hlisted =>
    rw [or_iff_right hlisted, ← map_contains_iff_mentions]
    split
    · next hsuccess => exact iff_of_true ⟨_, rfl⟩ (Or.inl hsuccess)
    · next hsuccess =>
      rw [or_iff_right hsuccess, ← EnumValue.exists_integer?_eq_ok_iff]
      simp only [Result.map_eq_ok_iff]
      constructor
      · rintro ⟨_, k, hk, -⟩
        exact ⟨k, hk⟩
      · rintro ⟨k, hk⟩
        exact ⟨_, k, hk, rfl⟩

/-! ## Chains of aliases -/

theorem step_valueLinks (hd : (decl.values.map (·.name)).Nodup) :
    Chain.Step (valueLinks decl) = ValueAliasOf decl := by
  ext a b
  rw [valueLinks, Chain.step_filterMap_iff hd, ValueAliasOf]

theorem rightUnique_valueAliasOf (hd : (decl.values.map (·.name)).Nodup) :
    Relator.RightUnique (ValueAliasOf decl) := step_valueLinks hd ▸ Chain.rightUnique_step

theorem not_valueAliasOf (hd : (decl.values.map (·.name)).Nodup) (hv : v ∈ decl.values)
    (halias : v.isAlias = false) (b : Option String) : ¬ValueAliasOf decl v.name b := by
  rintro ⟨w, hw, hname, htarget⟩
  obtain rfl := List.inj_on_of_nodup_map hd hw hv hname
  obtain ⟨target, htarget, -⟩ := htarget
  rw [EnumValue.isAlias_iff.mpr ⟨target, htarget⟩] at halias
  exact absurd halias (by simp)

/-- The names of an enum and its errors, as far as the placing of aliases depends on them: errors
are names without a target. -/
structure Placing (decl : EnumDecl) (errors : List (Option String)) : Prop where
  nodup : (decl.values.map (·.name)).Nodup
  errors_end : ∀ a ∈ errors, ∀ b, ¬ValueAliasOf decl a b

/-- A name is on the side of failure: its chain ends at an error. -/
def EndsInError (decl : EnumDecl) (errors : List (Option String)) (a : Option String) : Prop :=
  ∃ x ∈ errors, EndsAt (ValueAliasOf decl) a x

/-- What is placed is on its side: the chain of an error ends at an error, and that of a success
ends elsewhere. -/
structure Sides (decl : EnumDecl) (errors : List (Option String)) (p : ResultPartition) : Prop where
  error : ∀ a ∈ p.error, EndsInError decl errors a
  success : ∀ a ∈ p.success, ∃ x, EndsAt (ValueAliasOf decl) a x ∧ x ∉ errors

/-- **The walk from an alias** goes on for ever exactly if the chain does. Otherwise it ends at an
error exactly if the chain does. It may stop earlier, but only at successes, whose chains end, and
at none of the errors. -/
theorem walkEnd_spec (h : Placing decl errors) (hp : Sides decl errors p)
    (hv : v ∈ decl.values) (halias : v.isAlias = true) :
    (LeadsToCycle (ValueAliasOf decl) v.name ∧
      walkEnd decl (errors ++ p.success) v = .error .endlessWalk) ∨
    ∃ last x, walkEnd decl (errors ++ p.success) v = .ok last ∧
      EndsAt (ValueAliasOf decl) v.name x ∧ (last ∈ errors ↔ x ∈ errors) := by
  have hr := rightUnique_valueAliasOf h.nodup
  obtain ⟨target, htarget⟩ := EnumValue.isAlias_iff.mp halias
  have hstep : ValueAliasOf decl v.name (some target) := ⟨v, hv, rfl, target, htarget, rfl⟩
  have hsub : ∀ a b,
      Chain.Step ((valueLinks decl).filter fun l ↦ !(errors ++ p.success).contains l.1) a b
        ↔ a ∉ errors ++ p.success ∧ ValueAliasOf decl a b := by
    intro a b
    rw [Chain.step_filter_iff (p := fun a ↦ !(errors ++ p.success).contains a),
      step_valueLinks h.nodup, Bool.not_eq_true', ← Bool.not_eq_true, List.contains_iff_mem]
  rw [walkEnd, htarget]
  split
  · next y hwalk =>
    have hy := Chain.follow_eq_arrives_iff.mp hwalk
    have hreach : ReflTransGen (ValueAliasOf decl) v.name y :=
      (hy.1.lift id fun a b hab ↦ ((hsub a b).mp hab).2).head hstep
    refine Or.inr ⟨y, ?_⟩
    by_cases hsuccess : y ∈ p.success
    · obtain ⟨x, hx, hxerrors⟩ := hp.success y hsuccess
      refine ⟨x, rfl, ⟨hreach.trans hx.1, hx.2⟩, iff_of_false (fun hmem ↦ ?_) hxerrors⟩
      exact hxerrors (hx.unique hr (.refl (h.errors_end y hmem)) ▸ hmem)
    · -- The walk stops at an error or at a name that is not placed, so the chain ends there.
      refine ⟨y, rfl, ⟨hreach, fun b hb ↦ ?_⟩, Iff.rfl⟩
      by_cases hmem : y ∈ errors
      · exact h.errors_end y hmem b hb
      · exact hy.2 b ((hsub y b).mpr ⟨by simp [hmem, hsuccess], hb⟩)
  · next passed again hwalk =>
    -- The circle is one of the enum as well, so the chain runs in it for ever.
    have hcycle : LeadsToCycle (ValueAliasOf decl) (some target) :=
      (Chain.exists_follow_eq_returns_iff.mp ⟨passed, again, hwalk⟩).lift id
        fun a b hab ↦ ((hsub a b).mp hab).2
    exact Or.inl ⟨hcycle.head hstep, rfl⟩

/-- **One alias.** It is placed on its side, unless its chain goes on for ever. -/
theorem placeAlias_spec (h : Placing decl errors) (hp : Sides decl errors p)
    (hv : v ∈ decl.values) (halias : v.isAlias = true) :
    (LeadsToCycle (ValueAliasOf decl) v.name ∧
      placeAlias decl errors p v = .error .endlessWalk) ∨
    ¬LeadsToCycle (ValueAliasOf decl) v.name ∧ ∃ p', placeAlias decl errors p v = .ok p' ∧
      Sides decl errors p' ∧ p'.enumName = p.enumName ∧
      (p'.success ++ p'.error).Perm (v.name :: (p.success ++ p.error)) := by
  obtain ⟨hcycle, hwalk⟩ | ⟨last, x, hwalk, hx, hlast⟩ := walkEnd_spec h hp hv halias
  · exact Or.inl ⟨hcycle, by rw [placeAlias, hwalk]; rfl⟩
  refine Or.inr ⟨hx.not_leadsToCycle (rightUnique_valueAliasOf h.nodup), _,
    Result.bind_eq_ok_iff.mpr ⟨last, hwalk, rfl⟩, ?_⟩
  split
  · next hmem =>
    rw [List.contains_iff_mem] at hmem
    refine ⟨⟨fun a ha ↦ ?_, hp.success⟩, rfl, ?_⟩
    · obtain ha | ha := List.mem_append.mp ha
      · exact hp.error a ha
      · exact List.mem_singleton.mp ha ▸ ⟨x, hlast.mp hmem, hx⟩
    · rw [← List.append_assoc]
      exact List.perm_append_singleton _ _
  · next hmem =>
    rw [List.contains_iff_mem] at hmem
    refine ⟨⟨hp.error, fun a ha ↦ ?_⟩, rfl, ?_⟩
    · obtain ha | ha := List.mem_append.mp ha
      · exact hp.success a ha
      · exact List.mem_singleton.mp ha ▸ ⟨x, hx, fun hxerrors ↦ hmem (hlast.mpr hxerrors)⟩
    · rw [List.append_assoc]
      exact List.perm_middle

/-- **All aliases.** Each is placed once, on its side, unless one of them has a chain that goes on
for ever. -/
theorem foldlM_placeAlias_spec (h : Placing decl errors) (hp : Sides decl errors p)
    {aliases : List EnumValue} (haliases : ∀ v ∈ aliases, v ∈ decl.values ∧ v.isAlias = true) :
    ((∃ v ∈ aliases, LeadsToCycle (ValueAliasOf decl) v.name) ∧
      aliases.foldlM (placeAlias decl errors) p = .error .endlessWalk) ∨
    (∀ v ∈ aliases, ¬LeadsToCycle (ValueAliasOf decl) v.name) ∧
      ∃ p', aliases.foldlM (placeAlias decl errors) p = .ok p' ∧ Sides decl errors p' ∧
        p'.enumName = p.enumName ∧
        (p'.success ++ p'.error).Perm (aliases.map (·.name) ++ (p.success ++ p.error)) := by
  induction aliases generalizing p with
  | nil => exact Or.inr ⟨List.forall_mem_nil _, p, rfl, hp, rfl, .refl _⟩
  | cons v aliases ih =>
    rw [List.forall_mem_cons] at haliases
    rw [List.foldlM_cons, List.forall_mem_cons]
    obtain ⟨hcycle, hplace⟩ | ⟨hends, p', hplace, hp', hname, hperm⟩ :=
      placeAlias_spec h hp haliases.1.1 haliases.1.2
    · exact Or.inl ⟨⟨v, List.mem_cons_self, hcycle⟩, by rw [hplace]; rfl⟩
    rw [hplace, Result.ok_bind]
    obtain ⟨⟨w, hw, hcycle⟩, hrest⟩ | ⟨hall, final, hrest, hfinal, hfinalName, hfinalPerm⟩ :=
      ih hp' haliases.2
    · exact Or.inl ⟨⟨w, List.mem_cons_of_mem v hw, hcycle⟩, hrest⟩
    · refine Or.inr ⟨⟨hends, hall⟩, final, hrest, hfinal, hfinalName.trans hname, ?_⟩
      exact hfinalPerm.trans ((hperm.append_left _).trans List.perm_middle)

/-! ## One enum -/

theorem exists_judgements_eq_ok_iff : (∃ judged, judgements codes decl = .ok judged) ↔
    ∀ v ∈ decl.values, v.isAlias = false → CanBeJudged codes v := by
  have hvalues : ∀ v, v ∈ decl.values.filter (fun v ↦ !v.isAlias) ↔
      v ∈ decl.values ∧ v.isAlias = false := by simp
  constructor
  · rintro ⟨judged, hjudged⟩ v hv halias
    obtain ⟨isError, hisError, -⟩ :=
      Result.exists_of_mapM_bind hjudged ((hvalues v).mpr ⟨hv, halias⟩)
    exact exists_valueIsError_eq_ok_iff.mp ⟨isError, hisError⟩
  · refine fun hall ↦ Result.exists_mapM_bind_eq_ok fun v hv ↦ ?_
    obtain ⟨hv, halias⟩ := (hvalues v).mp hv
    exact exists_valueIsError_eq_ok_iff.mpr (hall v hv halias)

theorem map_fst_judgements {judged : List (Option String × Bool)}
    (h : judgements codes decl = .ok judged) :
    judged.map (·.1) = (decl.values.filter fun v ↦ !v.isAlias).map (·.name) :=
  Result.map_eq_of_mapM_bind h fun _ _ ↦ rfl

theorem mem_judgements_iff {judged : List (Option String × Bool)}
    (h : judgements codes decl = .ok judged) {isError : Bool} :
    (a, isError) ∈ judged ↔ ∃ v ∈ decl.values, v.isAlias = false ∧ v.name = a ∧
      (isError = true ↔ ReportsFailure codes v) := by
  constructor
  · intro hmem
    obtain ⟨v, hv, _, hjudged, hj⟩ := (Result.mem_of_mapM_bind h).mp hmem
    obtain ⟨hname, rfl⟩ := Prod.mk.inj hj
    rw [List.mem_filter, Bool.not_eq_true'] at hv
    exact ⟨v, hv.1, hv.2, hname, valueIsError_spec hjudged⟩
  · rintro ⟨v, hv, halias, rfl, hfails⟩
    have hvalue : v ∈ decl.values.filter fun v ↦ !v.isAlias :=
      List.mem_filter.mpr ⟨hv, by simp [halias]⟩
    obtain ⟨isError', hjudged, hmem⟩ := Result.exists_of_mapM_bind h hvalue
    rwa [Bool.eq_iff_iff.mpr (hfails.trans (valueIsError_spec hjudged).symm)]

theorem mem_error_start_iff {judged : List (Option String × Bool)} :
    a ∈ (start decl judged).error ↔ (a, true) ∈ judged := by
  simp [start]

theorem mem_success_start_iff {judged : List (Option String × Bool)} :
    a ∈ (start decl judged).success ↔ (a, false) ∈ judged := by
  simp [start]

theorem success_append_error_start_perm (decl : EnumDecl) (judged : List (Option String × Bool)) :
    ((start decl judged).success ++ (start decl judged).error).Perm (judged.map (·.1)) := by
  have hperm := (List.filter_append_perm (fun j ↦ !j.2) judged).map (·.1)
  simpa only [start, List.map_append, Bool.not_not] using hperm

theorem placing_start {judged : List (Option String × Bool)}
    (hd : (decl.values.map (·.name)).Nodup) (h : judgements codes decl = .ok judged) :
    Placing decl (start decl judged).error ∧
      Sides decl (start decl judged).error (start decl judged) := by
  have hend : ∀ a isError, (a, isError) ∈ judged → ∀ b, ¬ValueAliasOf decl a b := by
    intro a isError hmem
    obtain ⟨v, hv, halias, rfl, -⟩ := (mem_judgements_iff h).mp hmem
    exact not_valueAliasOf hd hv halias
  refine ⟨⟨hd, fun a ha ↦ hend a true (mem_error_start_iff.mp ha)⟩, ⟨?_, ?_⟩⟩
  · intro a ha
    exact ⟨a, ha, .refl (hend a true (mem_error_start_iff.mp ha))⟩
  · refine fun a ha ↦ ⟨a, .refl (hend a false (mem_success_start_iff.mp ha)), fun hx ↦ ?_⟩
    -- The name was judged both ways, but only one value has it.
    obtain ⟨v, hv, -, hname, hsuccess⟩ := (mem_judgements_iff h).mp (mem_success_start_iff.mp ha)
    obtain ⟨w, hw, -, hname', hfails⟩ := (mem_judgements_iff h).mp (mem_error_start_iff.mp hx)
    obtain rfl := List.inj_on_of_nodup_map hd hv hw (hname.trans hname'.symm)
    exact absurd (hsuccess.mpr (hfails.mp rfl)) (by simp)

/-- The chain of a name ends at a value that reports a failure. -/
def EndsInFailure (codes : Listed) (decl : EnumDecl) (a : Option String) : Prop :=
  ∃ w ∈ decl.values, w.isAlias = false ∧ ReportsFailure codes w ∧
    EndsAt (ValueAliasOf decl) a w.name

/-- What an enum is split into: every value stands on one side, and on that of failure exactly if
its chain ends at a value that reports one. -/
structure Split (codes : Listed) (decl : EnumDecl) (p : ResultPartition) : Prop where
  enumName : p.enumName = decl.name
  perm : (p.success ++ p.error).Perm (decl.values.map (·.name))
  error : ∀ a ∈ p.error, EndsInFailure codes decl a
  success : ∀ a ∈ p.success, ¬EndsInFailure codes decl a

theorem endsInError_start_iff {judged : List (Option String × Bool)}
    (h : judgements codes decl = .ok judged) :
    EndsInError decl (start decl judged).error a ↔ EndsInFailure codes decl a := by
  simp only [EndsInError, EndsInFailure, mem_error_start_iff, mem_judgements_iff h, true_iff]
  constructor
  · rintro ⟨_, ⟨w, hw, halias, rfl, hfails⟩, hends⟩
    exact ⟨w, hw, halias, hfails, hends⟩
  · rintro ⟨w, hw, halias, hfails, hends⟩
    exact ⟨w.name, ⟨w, hw, halias, rfl, hfails⟩, hends⟩

/-- An enum can be split: what is no alias can be judged, and every alias has a chain that ends. -/
structure Splittable (codes : Listed) (decl : EnumDecl) : Prop where
  values : ∀ v ∈ decl.values, v.isAlias = false → CanBeJudged codes v
  aliases : ∀ v ∈ decl.values, v.isAlias = true → ¬LeadsToCycle (ValueAliasOf decl) v.name

/-- **One enum.** There is a split exactly if the enum can be split, whatever the order of its
values and the chains of its aliases. -/
theorem ofEnum_spec (codes : Listed) (hd : (decl.values.map (·.name)).Nodup) :
    (¬Splittable codes decl ∧ ∃ e, ofEnum codes decl = .error e) ∨
    Splittable codes decl ∧ ∃ p, ofEnum codes decl = .ok p ∧ Split codes decl p := by
  cases hjudged : judgements codes decl with
  | error e =>
    refine Or.inl ⟨fun h ↦ ?_, e, by rw [ofEnum, hjudged]; rfl⟩
    obtain ⟨judged, hok⟩ := exists_judgements_eq_ok_iff.mpr h.values
    exact absurd (hjudged.symm.trans hok) (by simp)
  | ok judged =>
    have hvalues := exists_judgements_eq_ok_iff.mp ⟨judged, hjudged⟩
    obtain ⟨hplacing, hstart⟩ := placing_start hd hjudged
    have haliases : ∀ v ∈ decl.values.filter (·.isAlias), v ∈ decl.values ∧ v.isAlias = true :=
      fun v hv ↦ List.mem_filter.mp hv
    rw [ofEnum, hjudged, Result.ok_bind]
    obtain ⟨⟨v, hv, hcycle⟩, hfails⟩ | ⟨hends, p, hp, hsides, hname, hperm⟩ :=
      foldlM_placeAlias_spec hplacing hstart haliases
    · obtain ⟨hv, halias⟩ := haliases v hv
      exact Or.inl ⟨fun h ↦ h.aliases v hv halias hcycle, _, hfails⟩
    refine Or.inr ⟨⟨hvalues, fun v hv halias ↦ hends v (List.mem_filter.mpr ⟨hv, halias⟩)⟩, p, hp,
      hname, ?_, ?_, ?_⟩
    · refine hperm.trans (((success_append_error_start_perm decl judged).append_left _).trans ?_)
      rw [map_fst_judgements hjudged, ← List.map_append]
      exact (List.filter_append_perm (·.isAlias) decl.values).map _
    · exact fun a ha ↦ (endsInError_start_iff hjudged).mp (hsides.error a ha)
    · intro a ha hfails
      obtain ⟨x, hx, hxerrors⟩ := hsides.success a ha
      obtain ⟨y, hy, hends⟩ := (endsInError_start_iff hjudged).mpr hfails
      exact hxerrors (hx.unique (rightUnique_valueAliasOf hd) hends ▸ hy)

theorem splittable_of_ofEnum (hd : (decl.values.map (·.name)).Nodup)
    (h : ofEnum codes decl = .ok p) : Splittable codes decl := by
  obtain ⟨-, e, hfails⟩ | ⟨hsplittable, -⟩ := ofEnum_spec codes hd
  · exact absurd (h.symm.trans hfails) (by simp)
  · exact hsplittable

theorem split_of_ofEnum (hd : (decl.values.map (·.name)).Nodup) (h : ofEnum codes decl = .ok p) :
    Split codes decl p := by
  obtain ⟨-, e, hfails⟩ | ⟨-, p', hp', hsplit⟩ := ofEnum_spec codes hd
  · exact absurd (h.symm.trans hfails) (by simp)
  · rwa [Except.ok.inj (h.symm.trans hp')]

theorem exists_split_ofEnum (hd : (decl.values.map (·.name)).Nodup)
    (h : Splittable codes decl) : ∃ p, ofEnum codes decl = .ok p ∧ Split codes decl p := by
  obtain ⟨hnot, -⟩ | ⟨-, hsplit⟩ := ofEnum_spec codes hd
  · exact absurd h hnot
  · exact hsplit

/-- Without cycles and negative bits an enum can be split. -/
theorem Splittable.of_acyclic (hacyclic : ∀ a, ¬TransGen (ValueAliasOf decl) a a)
    (hbits : ∀ v ∈ decl.values, ∀ bit, v.bit? = some bit → 0 ≤ bit) : Splittable codes decl where
  values v hv _ := Or.inr (Or.inr (Or.inr (hbits v hv)))
  aliases v _ _ := not_leadsToCycle_of_acyclic hacyclic v.name

namespace Split

variable (h : Split codes decl p)

include h

theorem nodup (hd : (decl.values.map (·.name)).Nodup) : (p.success ++ p.error).Nodup :=
  h.perm.nodup_iff.mpr hd

theorem mem_error_iff (ha : a ∈ decl.values.map (·.name)) :
    a ∈ p.error ↔ EndsInFailure codes decl a := by
  refine ⟨h.error a, fun hends ↦ ?_⟩
  obtain hsuccess | herror := List.mem_append.mp (h.perm.mem_iff.mpr ha)
  · exact absurd hends (h.success a hsuccess)
  · exact herror

theorem mem_success_iff (ha : a ∈ decl.values.map (·.name)) :
    a ∈ p.success ↔ ¬EndsInFailure codes decl a := by
  refine ⟨h.success a, fun hends ↦ ?_⟩
  obtain hsuccess | herror := List.mem_append.mp (h.perm.mem_iff.mpr ha)
  · exact hsuccess
  · exact absurd (h.error a herror) hends

end Split

/-- A value that is no alias ends its chain, so its own report decides. -/
theorem endsInFailure_iff_reportsFailure (hd : (decl.values.map (·.name)).Nodup)
    (hv : v ∈ decl.values) (halias : v.isAlias = false) :
    EndsInFailure codes decl v.name ↔ ReportsFailure codes v := by
  have hself : EndsAt (ValueAliasOf decl) v.name v.name := .refl (not_valueAliasOf hd hv halias)
  constructor
  · rintro ⟨w, hw, -, hfails, hends⟩
    have hname := hself.unique (rightUnique_valueAliasOf hd) hends
    rwa [List.inj_on_of_nodup_map hd hv hw hname]
  · exact fun hfails ↦ ⟨v, hv, halias, hfails, hself⟩

theorem endsInFailure_congr (hd : (decl.values.map (·.name)).Nodup)
    (hends : EndsAt (ValueAliasOf decl) a b) :
    EndsInFailure codes decl a ↔ EndsInFailure codes decl b := by
  constructor
  · rintro ⟨w, hw, halias, hfails, haw⟩
    exact ⟨w, hw, halias, hfails, haw.of_reflTransGen (rightUnique_valueAliasOf hd) hends.1⟩
  · rintro ⟨w, hw, halias, hfails, hbw⟩
    exact ⟨w, hw, halias, hfails, hends.1.trans hbw.1, hbw.2⟩

/-- Every chain has an end, and a value stands beside the end of its chain. -/
theorem Split.beside_end (h : Split codes decl p) (hd : (decl.values.map (·.name)).Nodup)
    (hacyclic : ∀ a, ¬TransGen (ValueAliasOf decl) a a) (hv : v ∈ decl.values) :
    ∃ x, EndsAt (ValueAliasOf decl) v.name x ∧
      (∀ w ∈ decl.values, w.name = x → w.isAlias = false ∧
        (v.name ∈ p.error ↔ w.name ∈ p.error) ∧ (v.name ∈ p.success ↔ w.name ∈ p.success)) ∧
      (x ∉ decl.values.map (·.name) → v.name ∈ p.success) := by
  have hname : v.name ∈ decl.values.map (·.name) := List.mem_map_of_mem hv
  have hchain := Chain.exists_endsAt_or_leadsToCycle (valueLinks decl) v.name
  rw [step_valueLinks hd, or_iff_left (not_leadsToCycle_of_acyclic hacyclic _)] at hchain
  obtain ⟨x, hx⟩ := hchain
  refine ⟨x, hx, ?_, fun hforeign ↦ ?_⟩
  · rintro w hw rfl
    have hname' : w.name ∈ decl.values.map (·.name) := List.mem_map_of_mem hw
    refine ⟨?_, ?_, ?_⟩
    · by_contra halias
      obtain ⟨target, htarget⟩ := EnumValue.isAlias_iff.mp (Bool.not_eq_false _ ▸ halias)
      exact hx.2 _ ⟨w, hw, rfl, target, htarget, rfl⟩
    · rw [h.mem_error_iff hname, h.mem_error_iff hname', endsInFailure_congr hd hx]
    · rw [h.mem_success_iff hname, h.mem_success_iff hname', endsInFailure_congr hd hx]
  · rw [h.mem_success_iff hname]
    rintro ⟨w, hw, -, -, hends⟩
    rw [hx.unique (rightUnique_valueAliasOf hd) hends] at hforeign
    exact hforeign (List.mem_map_of_mem hw)

/-- The codes that commands list, one command at a time. -/
theorem reportsFailure_listed_iff {commands : List CommandDecl} :
    ReportsFailure (listed commands) v ↔ Mentions pendingOverrides v.name ∨
      (∃ c ∈ commands, Mentions c.errorCodes v.name) ∨
      (∀ c ∈ commands, ¬Mentions c.successCodes v.name) ∧
        ∃ n, v.integer? = .ok (some n) ∧ n < 0 := by
  simp only [ReportsFailure, listed, mentions_flatMap_iff, not_exists, not_and]

end ResultPartition

/-! ## All enums that commands return -/

/-- A command returns an enum as it is, and the enum is no set of flags. -/
def Document.ReturnsEnum (d : Document) (name : String) (decl : EnumDecl) : Prop :=
  d.enums.get? name = some decl ∧ decl.isBitmask = false ∧
    ∃ c ∈ d.commands.values, c.returns.pointers = [] ∧ c.returns.typeName = name

theorem mem_resultEnums_iff {d : Document} {decl : EnumDecl} :
    decl ∈ d.resultEnums ↔ ∃ name, d.ReturnsEnum name decl := by
  simp only [Document.resultEnums, List.mem_filterMap, List.mem_eraseDups, List.mem_map,
    List.mem_filter, List.isEmpty_iff, Option.filter_eq_some_iff, Bool.not_eq_true',
    Document.ReturnsEnum]
  constructor
  · rintro ⟨name, ⟨c, ⟨hc, hpointers⟩, hname⟩, hget, hflags⟩
    exact ⟨name, hget, hflags, c, hc, hpointers, hname⟩
  · rintro ⟨name, hget, hflags, c, hc, hpointers, hname⟩
    exact ⟨name, ⟨c, ⟨hc, hpointers⟩, hname⟩, hget, hflags⟩

theorem nodup_map_name_resultEnums {d : Document} (hn : EnumsNamed d.enums) :
    (d.resultEnums.map (·.name)).Nodup := by
  rw [Document.resultEnums]
  refine List.Nodup.sublist (map_filterMap_sublist id (fun name decl h ↦ ?_) _) ?_
  · exact (hn name decl (Option.filter_eq_some_iff.mp h).1).1
  · rw [List.map_id]
    exact nodup_eraseDups _

/-- **There are splits** exactly if every enum that commands return can be split. -/
theorem exists_partitions_iff {d : Document} (hn : EnumsNamed d.enums) :
    (∃ partitions, d.partitions = .ok partitions) ↔ ∀ name decl, d.ReturnsEnum name decl →
      ResultPartition.Splittable (ResultPartition.listed d.commands.values) decl := by
  constructor
  · rintro ⟨partitions, h⟩ name decl hreturns
    obtain ⟨pairs, hpairs, -⟩ := Result.bind_eq_ok_iff.mp h
    obtain ⟨p, hp, -⟩ :=
      Result.exists_of_mapM_bind hpairs (mem_resultEnums_iff.mpr ⟨name, hreturns⟩)
    exact ResultPartition.splittable_of_ofEnum (hn name decl hreturns.1).2 hp
  · intro hall
    have hsteps : ∀ decl ∈ d.resultEnums, ∃ p,
        ResultPartition.ofEnum (ResultPartition.listed d.commands.values) decl = .ok p := by
      intro decl hdecl
      obtain ⟨name, hreturns⟩ := mem_resultEnums_iff.mp hdecl
      obtain ⟨p, hp, -⟩ := ResultPartition.exists_split_ofEnum (hn name decl hreturns.1).2
        (hall name decl hreturns)
      exact ⟨p, hp⟩
    obtain ⟨pairs, hpairs⟩ :=
      Result.exists_mapM_bind_eq_ok (k := fun decl p ↦ (decl.name, p)) hsteps
    exact ⟨Table.ofList pairs, Result.bind_eq_ok_iff.mpr ⟨pairs, hpairs, rfl⟩⟩

/-- The table has an entry for each enum that commands return, under its name. -/
theorem get?_partitions_iff {d : Document} (hn : EnumsNamed d.enums)
    {partitions : Table String ResultPartition} (h : d.partitions = .ok partitions)
    {name : String} {p : ResultPartition} :
    partitions.get? name = some p ↔ ∃ decl, d.ReturnsEnum name decl ∧
      ResultPartition.ofEnum (ResultPartition.listed d.commands.values) decl = .ok p := by
  obtain ⟨pairs, hpairs, h⟩ := Result.bind_eq_ok_iff.mp h
  obtain rfl := Result.pure_eq_ok_iff.mp h
  have hkeys : pairs.map Prod.fst = d.resultEnums.map (·.name) :=
    Result.map_eq_of_mapM_bind hpairs fun _ _ ↦ rfl
  rw [Table.get?_eq_some_iff, Table.entries_ofList (hkeys ▸ nodup_map_name_resultEnums hn)]
  simp only [Result.mem_of_mapM_bind hpairs, Prod.mk.injEq, mem_resultEnums_iff]
  constructor
  · rintro ⟨decl, ⟨name', hreturns⟩, _, hp, rfl, rfl⟩
    rw [(hn name' decl hreturns.1).1]
    exact ⟨decl, hreturns, hp⟩
  · rintro ⟨decl, hreturns, hp⟩
    exact ⟨decl, ⟨name, hreturns⟩, p, hp, (hn name decl hreturns.1).1, rfl⟩

theorem exists_get?_partitions {d : Document} (hn : EnumsNamed d.enums)
    {partitions : Table String ResultPartition} (h : d.partitions = .ok partitions) {name : String}
    {decl : EnumDecl} (hreturns : d.ReturnsEnum name decl) :
    ∃ p, partitions.get? name = some p := by
  obtain ⟨pairs, hpairs, -⟩ := Result.bind_eq_ok_iff.mp h
  obtain ⟨p, hp, -⟩ :=
    Result.exists_of_mapM_bind hpairs (mem_resultEnums_iff.mpr ⟨name, hreturns⟩)
  exact ⟨p, (get?_partitions_iff hn h).mpr ⟨decl, hreturns, hp⟩⟩

theorem enumName_of_get?_partitions {d : Document} (hn : EnumsNamed d.enums)
    {partitions : Table String ResultPartition} (h : d.partitions = .ok partitions) {name : String}
    {p : ResultPartition} (hp : partitions.get? name = some p) : p.enumName = name := by
  obtain ⟨decl, hreturns, hp⟩ := (get?_partitions_iff hn h).mp hp
  obtain ⟨hname, hnodup⟩ := hn name decl hreturns.1
  exact (ResultPartition.split_of_ofEnum hnodup hp).enumName.trans hname

theorem get?_partitions_eq_none {d : Document} (hn : EnumsNamed d.enums)
    {partitions : Table String ResultPartition} (h : d.partitions = .ok partitions) {name : String}
    (hname : name ∉ d.enums.keys) : partitions.get? name = none := by
  refine Option.eq_none_iff_forall_ne_some.mpr fun p hp ↦ hname ?_
  obtain ⟨decl, hreturns, -⟩ := (get?_partitions_iff hn h).mp hp
  exact (Table.mem_keys_iff _).mpr ⟨decl, hreturns.1⟩

/-- **Success and failure.** If the returned enums of an accepted document have no cycles of aliases
and no negative bits, each of them has an entry, in which every value stands once. A value that is
no alias is an error exactly if it always counts as one, or a command lists it as one, or no command
lists it as a success and it is negative. An alias stands beside the value at the end of its chain,
and with the successes if that is not declared. -/
theorem partitions_split {d : Document} (hd : d.Accepted)
    (hacyclic : ∀ name decl, d.ReturnsEnum name decl → ∀ a, ¬TransGen (ValueAliasOf decl) a a)
    (hbits : ∀ name decl, d.ReturnsEnum name decl →
      ∀ v ∈ decl.values, ∀ bit, v.bit? = some bit → 0 ≤ bit) :
    ∃ partitions, d.partitions = .ok partitions ∧
      (∀ name, name ∈ partitions.keys ↔ ∃ decl, d.ReturnsEnum name decl) ∧
      ∀ name p, partitions.get? name = some p → ∃ decl, d.ReturnsEnum name decl ∧
        p.enumName = name ∧ (p.success ++ p.error).Nodup ∧
        (p.success ++ p.error).Perm (decl.values.map (·.name)) ∧
        (∀ v ∈ decl.values, v.isAlias = false → (v.name ∈ p.error ↔
          Mentions pendingOverrides v.name ∨
          (∃ c ∈ d.commands.values, Mentions c.errorCodes v.name) ∨
          (∀ c ∈ d.commands.values, ¬Mentions c.successCodes v.name) ∧
            ∃ n, v.integer? = .ok (some n) ∧ n < 0)) ∧
        ∀ v ∈ decl.values, ∃ x, EndsAt (ValueAliasOf decl) v.name x ∧
          (∀ w ∈ decl.values, w.name = x → w.isAlias = false ∧
            (v.name ∈ p.error ↔ w.name ∈ p.error) ∧ (v.name ∈ p.success ↔ w.name ∈ p.success)) ∧
          (x ∉ decl.values.map (·.name) → v.name ∈ p.success) := by
  have hn := hd.consistent.enums_named
  have hsplit : ∀ name decl, d.ReturnsEnum name decl →
      ∃ p, ResultPartition.ofEnum (ResultPartition.listed d.commands.values) decl = .ok p ∧
        ResultPartition.Split (ResultPartition.listed d.commands.values) decl p := fun name decl h ↦
    ResultPartition.exists_split_ofEnum (hn name decl h.1).2
      (.of_acyclic (hacyclic name decl h) (hbits name decl h))
  obtain ⟨partitions, hpartitions⟩ := (exists_partitions_iff hn).mpr fun name decl h ↦
    .of_acyclic (hacyclic name decl h) (hbits name decl h)
  refine ⟨partitions, hpartitions, fun name ↦ ?_, fun name p hget ↦ ?_⟩
  · simp only [Table.mem_keys_iff, get?_partitions_iff hn hpartitions]
    constructor
    · rintro ⟨p, decl, hreturns, -⟩
      exact ⟨decl, hreturns⟩
    · rintro ⟨decl, hreturns⟩
      obtain ⟨p, hp, -⟩ := hsplit name decl hreturns
      exact ⟨p, decl, hreturns, hp⟩
  · obtain ⟨decl, hreturns, hp⟩ := (get?_partitions_iff hn hpartitions).mp hget
    obtain ⟨p', hp', h⟩ := hsplit name decl hreturns
    obtain rfl := Except.ok.inj (hp.symm.trans hp')
    obtain ⟨hname, hnodup⟩ := hn name decl hreturns.1
    refine ⟨decl, hreturns, h.enumName.trans hname, h.nodup hnodup, h.perm, ?_, ?_⟩
    · intro v hv halias
      rw [h.mem_error_iff (List.mem_map_of_mem hv),
        ResultPartition.endsInFailure_iff_reportsFailure hnodup hv halias,
        ResultPartition.reportsFailure_listed_iff]
    · exact fun v hv ↦ h.beside_end hnodup (hacyclic name decl hreturns) hv

/-- A command that returns an enum, in which an alias stands before the value that it follows. -/
def pollRegistry : Element :=
  ⟨"registry", [], "", [
    ⟨"enums", [("name", "XrResult")], "", [
      ⟨"enum", [("name", "XR_ERROR_GONE"), ("alias", "XR_ERROR_LOST")], "", [], ""⟩,
      ⟨"enum", [("name", "XR_SUCCESS"), ("value", "0")], "", [], ""⟩,
      ⟨"enum", [("name", "XR_ERROR_LOST"), ("value", "-1")], "", [], ""⟩], ""⟩,
    ⟨"commands", [], "", [
      ⟨"command", [("successcodes", "XR_SUCCESS")], "", [
        ⟨"proto", [], "", [⟨"type", [], "XrResult", [], ""⟩, ⟨"name", [], "xrPoll", [], ""⟩], ""⟩],
        ""⟩], ""⟩], ""⟩

def pollResult : EnumDecl where
  name := "XrResult"
  kind := "enum"
  values := [
    { name := some "XR_ERROR_GONE", meaning := .aliasOf "XR_ERROR_LOST", origin := "core" },
    { name := some "XR_SUCCESS", meaning := .number 0, origin := "core" },
    { name := some "XR_ERROR_LOST", meaning := .number (-1), origin := "core" }]

def pollDocument : Document where
  tags := []
  types := .empty
  enums := Table.ofList [("XrResult", pollResult)]
  commands := Table.ofList [("xrPoll", {
    name := "xrPoll", returns := { name := "", typeName := "XrResult" }, params := []
    successCodes := ["XR_SUCCESS"] })]
  commandAliases := .empty
  apiConstants := .empty
  features := []
  extensions := []
  origins := .empty
  version := "unknown"

set_option maxRecDepth 10000 in
theorem pollDocument_accepted : pollDocument.Accepted :=
  ⟨pollRegistry, by with_unfolding_all rfl⟩

theorem eq_pollResult {name : String} {decl : EnumDecl} (h : pollDocument.ReturnsEnum name decl) :
    decl = pollResult := by
  obtain ⟨hget, -, c, hc, -, rfl⟩ := h
  obtain rfl := List.mem_singleton.mp hc
  exact (Option.some.inj hget).symm

theorem endsAt_pollResult :
    EndsAt (ValueAliasOf pollResult) (some "XR_ERROR_GONE") (some "XR_ERROR_LOST") := by
  rw [← ResultPartition.step_valueLinks (by decide)]
  exact ⟨.single rfl, Chain.not_step_of_lookup rfl⟩

theorem acyclic_pollResult (a : Option String) : ¬TransGen (ValueAliasOf pollResult) a a := by
  have hends := endsAt_pollResult
  rw [← ResultPartition.step_valueLinks (by decide)] at hends ⊢
  refine Chain.acyclic_step_iff.mpr (fun b hb ↦ ?_) a
  obtain rfl := List.mem_singleton.mp hb
  exact ⟨_, Chain.follow_eq_arrives_iff.mpr hends⟩

theorem bit?_pollResult {v : EnumValue} (hv : v ∈ pollResult.values) : v.bit? = none := by
  simp only [pollResult, List.mem_cons, List.not_mem_nil, or_false] at hv
  obtain rfl | rfl | rfl := hv <;> rfl

/-- The alias stands with the errors, although the enum lists it before the value it follows. -/
theorem partitions_split_poll :
    pollDocument.Accepted ∧ pollDocument.ReturnsEnum "XrResult" pollResult ∧
      ∃ partitions p, pollDocument.partitions = .ok partitions ∧
        partitions.get? "XrResult" = some p ∧ some "XR_ERROR_GONE" ∈ p.error := by
  have hreturns : pollDocument.ReturnsEnum "XrResult" pollResult :=
    ⟨rfl, rfl, _, List.mem_singleton_self _, rfl, rfl⟩
  obtain ⟨partitions, hpartitions, hkeys, hentries⟩ := partitions_split pollDocument_accepted
    (fun name decl h ↦ eq_pollResult h ▸ acyclic_pollResult)
    (fun name decl h v hv bit hbit ↦ by
      rw [bit?_pollResult (eq_pollResult h ▸ hv)] at hbit
      exact absurd hbit (by simp))
  obtain ⟨p, hp⟩ := partitions.mem_keys_iff.mp ((hkeys "XrResult").mpr ⟨pollResult, hreturns⟩)
  refine ⟨pollDocument_accepted, hreturns, partitions, p, hpartitions, hp, ?_⟩
  obtain ⟨decl, hdecl, -, -, -, hvalues, hchains⟩ := hentries "XrResult" p hp
  obtain rfl := eq_pollResult hdecl
  have hlost : some "XR_ERROR_LOST" ∈ p.error := by
    refine (hvalues ⟨some "XR_ERROR_LOST", .number (-1), "core"⟩ (by simp [pollResult]) rfl).mpr
      (Or.inr (Or.inr ⟨fun c hc ↦ ?_, -1, rfl, by decide⟩))
    obtain rfl := List.mem_singleton.mp hc
    simp [Mentions]
  obtain ⟨x, hx, hbeside, -⟩ := hchains ⟨some "XR_ERROR_GONE", .aliasOf "XR_ERROR_LOST", "core"⟩
    (by simp [pollResult])
  obtain rfl := hx.unique (ResultPartition.rightUnique_valueAliasOf (by decide)) endsAt_pollResult
  exact (hbeside ⟨some "XR_ERROR_LOST", .number (-1), "core"⟩ (by simp [pollResult]) rfl).2.1.mpr
    hlost

end XrBindings
