import XrBindings.Proofs.Command.ResultPartition

/-!
# Integers on one side

A command returns an integer, while an enum is split by names. Where two names have one integer the
check can go by only one of them, so a split is sound if such names stand on the same side, and if
everything that a command lists as an error is one. Aliases follow their chains, so they never stand
apart from the values at the ends. What can go wrong is decided before they are placed: values of
one integer are judged by their own names, and an alias is placed without a look at the lists.
-/

namespace XrBindings

open Relation XrBindings.Xml

namespace ResultPartition

variable {decl : EnumDecl} {codes : Listed} {p : ResultPartition} {v w : EnumValue}
  {a b : Option String} {k : Int}

/-- A name of an enum denotes an integer: its chain ends at a value that has it. -/
def Denotes (decl : EnumDecl) (a : Option String) (k : Int) : Prop :=
  ∃ w ∈ decl.values, w.integer? = .ok (some k) ∧ EndsAt (ValueAliasOf decl) a w.name

/-- Names of one integer stand on the same side, and everything that a command lists as an error is
one. -/
structure Sound (commands : List CommandDecl) (decl : EnumDecl) (p : ResultPartition) : Prop where
  same_side : ∀ a ∈ decl.values.map (·.name), ∀ b ∈ decl.values.map (·.name), ∀ k,
    Denotes decl a k → Denotes decl b k →
      a ∈ p.error ∧ b ∈ p.error ∨ a ∈ p.success ∧ b ∈ p.success
  listed_error : ∀ a ∈ decl.values.map (·.name), ∀ c ∈ commands, Mentions c.errorCodes a →
    a ∈ p.error

/-- Values of one integer are judged alike, and an alias that is listed as an error stands for a
value that reports a failure. -/
structure Unanimous (codes : Listed) (decl : EnumDecl) : Prop where
  values : ∀ v ∈ decl.values, ∀ w ∈ decl.values, ∀ k, v.integer? = .ok (some k) →
    w.integer? = .ok (some k) → (ReportsFailure codes v ↔ ReportsFailure codes w)
  aliases : ∀ v ∈ decl.values, v.isAlias = true → Mentions codes.error v.name →
    EndsInFailure codes decl v.name

theorem denotes_of_integer? (hd : (decl.values.map (·.name)).Nodup) (hv : v ∈ decl.values)
    (h : v.integer? = .ok (some k)) : Denotes decl v.name k :=
  ⟨v, hv, h, .refl (not_valueAliasOf hd hv (EnumValue.isAlias_eq_false_of_integer? h))⟩

/-- A name that denotes an integer is an error exactly if a value of this integer is judged to be
one. -/
theorem Split.mem_error_iff_of_endsAt (h : Split codes decl p)
    (hd : (decl.values.map (·.name)).Nodup) (ha : a ∈ decl.values.map (·.name))
    (hw : w ∈ decl.values) (hk : w.integer? = .ok (some k))
    (hends : EndsAt (ValueAliasOf decl) a w.name) : a ∈ p.error ↔ ReportsFailure codes w := by
  rw [h.mem_error_iff ha, endsInFailure_congr hd hends,
    endsInFailure_iff_reportsFailure hd hw (EnumValue.isAlias_eq_false_of_integer? hk)]

theorem Split.mem_success_iff_notMem_error (h : Split codes decl p)
    (ha : a ∈ decl.values.map (·.name)) : a ∈ p.success ↔ a ∉ p.error := by
  rw [h.mem_success_iff ha, h.mem_error_iff ha]

/-- **One enum.** Its split is sound exactly if the lists of the commands are unanimous about it. -/
theorem Split.sound_iff {commands : List CommandDecl} (h : Split (listed commands) decl p)
    (hd : (decl.values.map (·.name)).Nodup) :
    p.Sound commands decl ↔ Unanimous (listed commands) decl := by
  constructor
  · refine fun hsound ↦ ⟨fun v hv w hw k hvk hwk ↦ ?_, fun v hv _ hlisted ↦ ?_⟩
    · have hvalue : ∀ x ∈ decl.values, x.integer? = .ok (some k) →
          (x.name ∈ p.error ↔ ReportsFailure (listed commands) x) := fun x hx hxk ↦
        h.mem_error_iff_of_endsAt hd (List.mem_map_of_mem hx) hx hxk
          (.refl (not_valueAliasOf hd hx (EnumValue.isAlias_eq_false_of_integer? hxk)))
      rw [← hvalue v hv hvk, ← hvalue w hw hwk]
      obtain ⟨hve, hwe⟩ | ⟨hvs, hws⟩ := hsound.same_side v.name (List.mem_map_of_mem hv) w.name
        (List.mem_map_of_mem hw) k (denotes_of_integer? hd hv hvk) (denotes_of_integer? hd hw hwk)
      · exact iff_of_true hve hwe
      · exact iff_of_false ((h.mem_success_iff_notMem_error (List.mem_map_of_mem hv)).mp hvs)
          ((h.mem_success_iff_notMem_error (List.mem_map_of_mem hw)).mp hws)
    · obtain ⟨c, hc, hmention⟩ := mentions_flatMap_iff.mp hlisted
      exact (h.mem_error_iff (List.mem_map_of_mem hv)).mp
        (hsound.listed_error v.name (List.mem_map_of_mem hv) c hc hmention)
  · refine fun hunanimous ↦ ⟨?_, fun a ha c hc hmention ↦ ?_⟩
    · rintro a ha b hb k ⟨v, hv, hvk, hav⟩ ⟨w, hw, hwk, hbw⟩
      have hsame : a ∈ p.error ↔ b ∈ p.error := by
        rw [h.mem_error_iff_of_endsAt hd ha hv hvk hav, h.mem_error_iff_of_endsAt hd hb hw hwk hbw]
        exact hunanimous.values v hv w hw k hvk hwk
      by_cases herror : a ∈ p.error
      · exact Or.inl ⟨herror, hsame.mp herror⟩
      · exact Or.inr ⟨(h.mem_success_iff_notMem_error ha).mpr herror,
          (h.mem_success_iff_notMem_error hb).mpr fun hb' ↦ herror (hsame.mpr hb')⟩
    · obtain ⟨v, hv, rfl⟩ := List.mem_map.mp ha
      have hlisted : Mentions (listed commands).error v.name :=
        mentions_flatMap_iff.mpr ⟨c, hc, hmention⟩
      rw [h.mem_error_iff ha]
      -- A value that is no alias is judged by the lists, an alias is not.
      by_cases halias : v.isAlias = true
      · exact hunanimous.aliases v hv halias hlisted
      · rw [endsInFailure_iff_reportsFailure hd hv (by simpa using halias)]
        exact Or.inr (Or.inl hlisted)

end ResultPartition

/-- **Which splits are sound.** An accepted document is split exactly if every enum that its
commands return can be split; a chain of aliases that goes on for ever keeps all of them from it.
Then names of one integer stand on the same side of the split of an enum, and all its names that
commands list as errors are errors, exactly if values of one integer are judged alike and every
alias that is listed as an error stands for a value that reports a failure. -/
theorem partition_sound_iff {d : Document} (hd : d.Accepted) :
    ((∃ partitions, d.partitions = .ok partitions) ↔ ∀ name decl, d.ReturnsEnum name decl →
      ResultPartition.Splittable (ResultPartition.listed d.commands.values) decl) ∧
    ∀ partitions, d.partitions = .ok partitions → ∀ name p, partitions.get? name = some p →
      ∃ decl, d.ReturnsEnum name decl ∧ (p.Sound d.commands.values decl ↔
        ResultPartition.Unanimous (ResultPartition.listed d.commands.values) decl) := by
  have hn := hd.consistent.enums_named
  refine ⟨exists_partitions_iff hn, fun partitions hpartitions name p hp ↦ ?_⟩
  obtain ⟨decl, hreturns, hsplit⟩ := (get?_partitions_iff hn hpartitions).mp hp
  have hnodup := (hn name decl hreturns.1).2
  exact ⟨decl, hreturns, (ResultPartition.split_of_ofEnum hnodup hsplit).sound_iff hnodup⟩

theorem unanimous_pollResult :
    ResultPartition.Unanimous (ResultPartition.listed pollDocument.commands.values) pollResult where
  values := by
    intro v hv w hw k hvk hwk
    have hsame : v = w := by
      simp only [pollResult, List.mem_cons, List.not_mem_nil, or_false] at hv hw
      obtain rfl | rfl | rfl := hv <;> obtain rfl | rfl | rfl := hw <;>
        simp [EnumValue.integer?] at hvk hwk ⊢ <;> omega
    rw [hsame]
  aliases := by
    rintro v hv - ⟨n, hn, -⟩
    exact absurd hn List.not_mem_nil

set_option maxRecDepth 10000 in
/-- With different integers and no errors listed, the split is sound. -/
theorem partition_sound_iff_poll :
    pollDocument.Accepted ∧ ∃ partitions p, pollDocument.partitions = .ok partitions ∧
      partitions.get? "XrResult" = some p ∧ p.Sound pollDocument.commands.values pollResult := by
  have haccepted : pollDocument.Accepted := ⟨pollRegistry, by with_unfolding_all rfl⟩
  obtain ⟨partitions, hpartitions⟩ := (partition_sound_iff haccepted).1.mpr
    fun name decl h ↦ .of_acyclic (eq_pollResult h ▸ acyclic_pollResult) fun v hv bit hbit ↦ by
      rw [bit?_pollResult (eq_pollResult h ▸ hv)] at hbit
      exact absurd hbit (by simp)
  obtain ⟨p, hp⟩ := exists_get?_partitions haccepted.consistent.enums_named hpartitions
    ⟨rfl, rfl, _, List.mem_singleton_self _, rfl, rfl⟩
  obtain ⟨decl, hreturns, hsound⟩ := (partition_sound_iff haccepted).2 _ hpartitions _ _ hp
  obtain rfl := eq_pollResult hreturns
  exact ⟨haccepted, partitions, p, hpartitions, hp, hsound.mpr unanimous_pollResult⟩

/-- A command that lists an alias of a positive value as an error. -/
def oddRegistry : Element :=
  ⟨"registry", [], "", [
    ⟨"enums", [("name", "XrResult")], "", [
      ⟨"enum", [("name", "XR_SUCCESS"), ("value", "0")], "", [], ""⟩,
      ⟨"enum", [("name", "XR_ODD"), ("value", "1")], "", [], ""⟩,
      ⟨"enum", [("name", "XR_ODD_ALIAS"), ("alias", "XR_ODD")], "", [], ""⟩], ""⟩,
    ⟨"commands", [], "", [
      ⟨"command", [("errorcodes", "XR_ODD_ALIAS")], "", [
        ⟨"proto", [], "", [⟨"type", [], "XrResult", [], ""⟩, ⟨"name", [], "xrPoll", [], ""⟩], ""⟩],
        ""⟩], ""⟩], ""⟩

def oddResult : EnumDecl where
  name := "XrResult"
  kind := "enum"
  values := [
    { name := some "XR_SUCCESS", meaning := .number 0, origin := "core" },
    { name := some "XR_ODD", meaning := .number 1, origin := "core" },
    { name := some "XR_ODD_ALIAS", meaning := .aliasOf "XR_ODD", origin := "core" }]

def oddCommand : CommandDecl where
  name := "xrPoll"
  returns := { name := "", typeName := "XrResult" }
  params := []
  errorCodes := ["XR_ODD_ALIAS"]

def oddDocument : Document where
  tags := []
  types := .empty
  enums := Table.ofList [("XrResult", oddResult)]
  commands := Table.ofList [("xrPoll", oddCommand)]
  commandAliases := .empty
  apiConstants := .empty
  features := []
  extensions := []
  origins := .empty
  version := "unknown"

set_option maxRecDepth 10000 in
/-- The alias counts as a success, although the command lists it as an error. -/
theorem partition_unsound_odd :
    oddDocument.Accepted ∧ oddDocument.ReturnsEnum "XrResult" oddResult ∧
      oddCommand ∈ oddDocument.commands.values ∧
      Mentions oddCommand.errorCodes (some "XR_ODD_ALIAS") ∧
      ∃ partitions p, oddDocument.partitions = .ok partitions ∧
        partitions.get? "XrResult" = some p ∧ some "XR_ODD_ALIAS" ∈ p.success ∧
        some "XR_ODD_ALIAS" ∉ p.error ∧ ¬p.Sound oddDocument.commands.values oddResult := by
  have hcommand : oddCommand ∈ oddDocument.commands.values := List.mem_singleton_self _
  have hmentions : Mentions oddCommand.errorCodes (some "XR_ODD_ALIAS") :=
    ⟨"XR_ODD_ALIAS", List.mem_singleton_self _, rfl⟩
  refine ⟨⟨oddRegistry, by with_unfolding_all rfl⟩,
    ⟨rfl, rfl, oddCommand, hcommand, rfl, rfl⟩, hcommand, hmentions, _,
    ⟨"XrResult", [some "XR_SUCCESS", some "XR_ODD", some "XR_ODD_ALIAS"], []⟩,
    by with_unfolding_all rfl, rfl, by decide, List.not_mem_nil, fun hsound ↦ ?_⟩
  exact List.not_mem_nil
    (hsound.listed_error (some "XR_ODD_ALIAS") (by decide) oddCommand hcommand hmentions)

end XrBindings
