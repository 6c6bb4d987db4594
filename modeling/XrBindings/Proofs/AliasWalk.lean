import XrBindings.Bindings.Dispatch
import XrBindings.Proofs.Bindings.EnumLayout
import XrBindings.Proofs.TypeGraph.Spelling

/-!
# Walks along aliases

Types, values of enums and commands may be aliases of each other, and each kind has a search for
what an alias finally stands for. All three searches follow links, so each ends after at most as
many rounds as there are declarations of its kind, and where it ends is where the chain ends.

They differ in what the end of a chain may be. A type may be missing where the chain ends, and so
may a value. The targets of commands are checked when a document is read, so from an alias of an
accepted document a chain ends at a command or not at all.

A search for a type that leads to a cycle is rejected with the names on the way. Only the first name
can be missing, and then there is no text for the rejection.
-/

namespace XrBindings

open Relation XrBindings.Xml

variable {types : Table TypeName TypeDecl} {a b : TypeName} {decl : EnumDecl} {v : EnumValue}
  {d : Document} {name target last : String}

/-! ## Types -/

/-- The search is rejected for a cycle exactly if its chain leads to one, from a name that is
given. -/
theorem aliasTarget_rejects_cyclic_iff :
    (∃ e, aliasTarget types a = reject e ∧ e.code = .cyclicTypeDependency)
      ↔ a ≠ none ∧ LeadsToCycle (AliasOf types) a := by
  constructor
  · rintro ⟨e, he, hcode⟩
    rcases of_aliasTarget_eq_error he with ⟨b, -, -, hcause⟩ |
      ⟨hcycle, ⟨-, hcause⟩ | ⟨hgiven, -⟩⟩
    · obtain rfl := Failure.rejected.inj hcause
      simp [GenerationError.code] at hcode
    · simp at hcause
    · exact ⟨hgiven, hcycle⟩
  · rintro ⟨hgiven, hcycle⟩
    rcases aliasTarget_of_leadsToCycle hcycle with ⟨hnone, -⟩ | ⟨-, chain, hchain⟩
    · exact absurd hnone hgiven
    · exact ⟨_, hchain, rfl⟩

theorem aliasTarget_nameless_iff :
    aliasTarget types a = .error .namelessCycle ↔ a = none ∧ LeadsToCycle (AliasOf types) a := by
  constructor
  · intro h
    rcases of_aliasTarget_eq_error h with ⟨b, -, -, hcause⟩ |
      ⟨hcycle, ⟨hnone, -⟩ | ⟨-, chain, hcause⟩⟩
    · simp at hcause
    · exact ⟨hnone, hcycle⟩
    · simp at hcause
  · rintro ⟨hnone, hcycle⟩
    rcases aliasTarget_of_leadsToCycle hcycle with ⟨-, hnameless⟩ | ⟨hgiven, -⟩
    · exact hnameless
    · exact absurd hnone hgiven

theorem aliasTarget_rejects_dangling_iff :
    (∃ e, aliasTarget types a = reject e ∧ e.code = .danglingTypeReference)
      ↔ ∃ b, EndsAt (AliasOf types) a b ∧ b ∉ types.keys := by
  constructor
  · rintro ⟨e, he, hcode⟩
    rcases of_aliasTarget_eq_error he with ⟨b, hends, hb, -⟩ |
      ⟨-, ⟨-, hcause⟩ | ⟨-, chain, hcause⟩⟩
    · exact ⟨b, hends, hb⟩
    · simp at hcause
    · obtain rfl := Failure.rejected.inj hcause
      simp [GenerationError.code] at hcode
  · rintro ⟨b, hends, hb⟩
    exact ⟨_, aliasTarget_of_undeclared hends hb, rfl⟩

/-! ## Values of enums -/

namespace EnumMembers

open XrBindings.ResultPartition

theorem exists_value_of_mem_names (hmem : a ∈ decl.values.map (·.name))
    (hend : ∀ b, ¬ValueAliasOf decl a b) :
    ∃ w ∈ decl.values, w.name = a ∧ w.isAlias = false := by
  obtain ⟨w, hw, hname⟩ := List.mem_map.mp hmem
  refine ⟨w, hw, hname, ?_⟩
  by_contra halias
  obtain ⟨target, htarget⟩ := EnumValue.isAlias_iff.mp (by simpa using halias)
  exact hend _ ⟨w, hw, hname, target, htarget, rfl⟩

theorem mem_names_of_aliasTerminal? (h : aliasTerminal? decl v = some last) :
    some last ∈ decl.values.map (·.name) := by
  rw [aliasTerminal?] at h
  split at h
  · next n _ =>
    obtain ⟨w, hw, rfl⟩ := Option.map_eq_some_iff.mp h
    have hname : w.name = some n := by simpa using List.find?_some hw
    exact List.mem_map.mpr ⟨w, List.mem_of_find?_eq_some hw, hname⟩
  · exact absurd h (by simp)

/-- The chain of an alias ends at a name that is given, since that is the target of an alias. -/
theorem exists_eq_some_of_endsAt (hv : v ∈ decl.values) (halias : v.isAlias = true)
    (h : EndsAt (ValueAliasOf decl) v.name a) : ∃ n, a = some n := by
  obtain ⟨hreach, hend⟩ := h
  cases hreach with
  | refl =>
    obtain ⟨target, htarget⟩ := EnumValue.isAlias_iff.mp halias
    exact absurd ⟨v, hv, rfl, target, htarget, rfl⟩ (hend (some target))
  | tail _ hstep =>
    obtain ⟨w, -, -, target, -, rfl⟩ := hstep
    exact ⟨target, rfl⟩

theorem aliasTerminal?_eq_some_iff (hd : (decl.values.map (·.name)).Nodup) :
    aliasTerminal? decl v = some last ↔ ∃ w ∈ decl.values, w.name = some last ∧
      w.isAlias = false ∧ EndsAt (ValueAliasOf decl) v.name w.name := by
  constructor
  · intro h
    have hends := aliasTerminal?_spec hd h
    obtain ⟨w, hw, hname, halias⟩ :=
      exists_value_of_mem_names (mem_names_of_aliasTerminal? h) hends.2
    exact ⟨w, hw, hname, halias, hname ▸ hends⟩
  · rintro ⟨w, hw, hname, -, hends⟩
    exact aliasTerminal?_eq_some hd hw hname hends

/-- The search from an alias finds nothing exactly if its chain leads to a cycle or ends at a name
that the enum does not have. -/
theorem aliasTerminal?_eq_none_iff (hd : (decl.values.map (·.name)).Nodup) (hv : v ∈ decl.values)
    (halias : v.isAlias = true) :
    aliasTerminal? decl v = none ↔ LeadsToCycle (ValueAliasOf decl) v.name ∨
      ∃ a, EndsAt (ValueAliasOf decl) v.name a ∧ a ∉ decl.values.map (·.name) := by
  constructor
  · intro hnone
    obtain ⟨a, hends⟩ | hcycle := Chain.exists_endsAt_or_leadsToCycle (valueLinks decl) v.name
    · rw [step_valueLinks hd] at hends
      refine Or.inr ⟨a, hends, fun hmem ↦ ?_⟩
      obtain ⟨n, rfl⟩ := exists_eq_some_of_endsAt hv halias hends
      obtain ⟨w, hw, hname, -⟩ := exists_value_of_mem_names hmem hends.2
      rw [aliasTerminal?_eq_some hd hw hname (hname ▸ hends)] at hnone
      exact absurd hnone (by simp)
    · exact Or.inl (step_valueLinks hd ▸ hcycle)
  · intro h
    by_contra hne
    obtain ⟨last, hlast⟩ := Option.ne_none_iff_exists'.mp hne
    obtain ⟨w, hw, -, -, hends⟩ := (aliasTerminal?_eq_some_iff hd).mp hlast
    rcases h with hcycle | ⟨a, hends', hmem⟩
    · exact hends.not_leadsToCycle (rightUnique_valueAliasOf hd) hcycle
    · obtain rfl := hends.unique (rightUnique_valueAliasOf hd) hends'
      exact hmem (List.mem_map_of_mem hw)

end EnumMembers

/-! ## Commands -/

/-- The links of the aliases of commands. -/
def Document.commandAliasLinks (d : Document) : List (String × String) :=
  d.commandAliases.entries.map fun e ↦ (e.1, e.2.target)

/-- A name is declared as an alias of a command, or of another alias. -/
def Document.CommandAliasOf (d : Document) (name target : String) : Prop :=
  ∃ spelling, d.commandAliases.get? name = some spelling ∧ target = spelling.target

namespace Document

theorem step_commandAliasLinks (d : Document) :
    Chain.Step d.commandAliasLinks = d.CommandAliasOf := by
  have hkeys : d.commandAliasLinks.map Prod.fst = d.commandAliases.keys := by
    rw [commandAliasLinks, List.map_map]
    rfl
  ext name target
  rw [Chain.Step, Table.lookup_eq_some_iff_mem (hkeys ▸ d.commandAliases.nodup_keys),
    commandAliasLinks, List.mem_map]
  simp only [CommandAliasOf, Table.get?_eq_some_iff, Prod.mk.injEq]
  constructor
  · rintro ⟨⟨name, spelling⟩, hmem, rfl, rfl⟩
    exact ⟨spelling, hmem, rfl⟩
  · rintro ⟨spelling, hmem, rfl⟩
    exact ⟨(name, spelling), hmem, rfl, rfl⟩

theorem rightUnique_commandAliasOf (d : Document) : Relator.RightUnique d.CommandAliasOf :=
  d.step_commandAliasLinks ▸ Chain.rightUnique_step

theorem CommandAliasOf.left_mem_keys (h : d.CommandAliasOf name target) :
    name ∈ d.commandAliases.keys := by
  obtain ⟨spelling, hspelling, -⟩ := h
  exact d.commandAliases.mem_keys_iff.mpr ⟨spelling, hspelling⟩

/-- The targets of aliases are declared, as commands or as other aliases. -/
theorem Accepted.mem_keys_of_commandAliasOf (hd : d.Accepted) (h : d.CommandAliasOf name target) :
    target ∈ d.commands.keys ∨ target ∈ d.commandAliases.keys := by
  obtain ⟨root, tables, commandTables, enums, hread⟩ := hd.readFrom
  obtain ⟨_, -, hrest⟩ := Result.bind_eq_ok_iff.mp hread.references_checked
  obtain ⟨_, -, hrest⟩ := Result.bind_eq_ok_iff.mp hrest
  obtain ⟨_, -, haliases⟩ := Result.bind_eq_ok_iff.mp hrest
  obtain ⟨spelling, hspelling, rfl⟩ := h
  rw [hread.commandAliases_eq] at hspelling
  have hvalue := commandTables.aliases.mem_values_iff.mpr ⟨name, hspelling⟩
  have hchecked := Result.forM_eq_ok_iff.mp haliases spelling hvalue
  dsimp only at hchecked
  split at hchecked
  · next hdeclared =>
    rw [hread.commands_eq, hread.commandAliases_eq, keys_withOrigins]
    simpa [Table.contains_iff] using hdeclared
  · exact absurd hchecked Result.reject_ne_ok

theorem Accepted.mem_keys_of_endsAt (hd : d.Accepted) (hname : name ∈ d.commandAliases.keys)
    (h : EndsAt d.CommandAliasOf name last) : last ∈ d.commands.keys := by
  have hend : last ∉ d.commandAliases.keys := by
    intro hmem
    obtain ⟨spelling, hspelling⟩ := d.commandAliases.mem_keys_iff.mp hmem
    exact h.2 _ ⟨spelling, hspelling, rfl⟩
  obtain ⟨hreach, -⟩ := h
  cases hreach with
  | refl => exact absurd hname hend
  | tail _ hstep => exact (hd.mem_keys_of_commandAliasOf hstep).resolve_right hend

/-- The search finds exactly the command at the end of the chain. -/
theorem commandAliasTarget?_eq_some_iff :
    d.commandAliasTarget? name = some last
      ↔ last ∈ d.commands.keys ∧ EndsAt d.CommandAliasOf name last := by
  rw [← d.step_commandAliasLinks, ← Chain.follow_eq_arrives_iff, commandAliasTarget?,
    ← commandAliasLinks]
  cases Chain.follow d.commandAliasLinks name with
  | arrives last' =>
    dsimp only
    rw [Option.ite_none_right_eq_some, Table.contains_iff, Option.some.injEq,
      Chain.Outcome.arrives.injEq]
    constructor
    · rintro ⟨hmem, rfl⟩
      exact ⟨hmem, rfl⟩
    · rintro ⟨hmem, rfl⟩
      exact ⟨hmem, rfl⟩
  | returns passed again => simp

/-- In an accepted document the search from an alias finds nothing exactly if its chain leads to a
cycle. -/
theorem Accepted.commandAliasTarget?_eq_none_iff (hd : d.Accepted)
    (hname : name ∈ d.commandAliases.keys) :
    d.commandAliasTarget? name = none ↔ LeadsToCycle d.CommandAliasOf name := by
  constructor
  · intro hnone
    obtain ⟨last, hends⟩ | hcycle := Chain.exists_endsAt_or_leadsToCycle d.commandAliasLinks name
    · rw [d.step_commandAliasLinks] at hends
      have hfound := commandAliasTarget?_eq_some_iff.mpr ⟨hd.mem_keys_of_endsAt hname hends, hends⟩
      rw [hfound] at hnone
      exact absurd hnone (by simp)
    · rwa [d.step_commandAliasLinks] at hcycle
  · intro hcycle
    by_contra hne
    obtain ⟨last, hlast⟩ := Option.ne_none_iff_exists'.mp hne
    exact (commandAliasTarget?_eq_some_iff.mp hlast).2.not_leadsToCycle
      d.rightUnique_commandAliasOf hcycle

end Document

/-! ## All walks -/

/-- **Walks along aliases end, and find the end of the chain.** Every walk stops after at most as
many rounds as there are declarations.

* From any name, the search for a type gives the declaration at the end of the chain if the chain
  has an end that is declared, and is rejected as dangling exactly if the end is not declared. Where
  the chain leads to a cycle the search is rejected as cyclic, unless the name is missing.
* From an alias in an enum whose names differ, the search gives the value that is no alias at the
  end of the chain, and nothing exactly if the chain leads to a cycle or out of the enum.
* From an alias of a command in an accepted document, the search gives the command at the end of the
  chain, and nothing exactly if the chain leads to a cycle. -/
theorem aliasWalks_end (types : Table TypeName TypeDecl) (name : TypeName) (decl : EnumDecl)
    (d : Document) :
    (Chain.EndsWithin (aliasLinks types) name types.size ∧
      (∀ target, aliasTarget types name = .ok target ↔ StandsFor types name target) ∧
      ((∃ e, aliasTarget types name = reject e ∧ e.code = .cyclicTypeDependency)
        ↔ name ≠ none ∧ LeadsToCycle (AliasOf types) name) ∧
      (aliasTarget types name = .error .namelessCycle
        ↔ name = none ∧ LeadsToCycle (AliasOf types) name) ∧
      ((∃ e, aliasTarget types name = reject e ∧ e.code = .danglingTypeReference)
        ↔ ∃ last, EndsAt (AliasOf types) name last ∧ last ∉ types.keys)) ∧
    ((decl.values.map (·.name)).Nodup → ∀ v ∈ decl.values, v.isAlias = true →
      Chain.EndsWithin (ResultPartition.valueLinks decl) v.name decl.values.length ∧
      (∀ last, EnumMembers.aliasTerminal? decl v = some last
        ↔ ∃ w ∈ decl.values, w.name = some last ∧ w.isAlias = false ∧
          EndsAt (ValueAliasOf decl) v.name w.name) ∧
      (EnumMembers.aliasTerminal? decl v = none
        ↔ LeadsToCycle (ValueAliasOf decl) v.name ∨
          ∃ last, EndsAt (ValueAliasOf decl) v.name last ∧ last ∉ decl.values.map (·.name))) ∧
    (d.Accepted → ∀ spelling ∈ d.commandAliases.keys,
      Chain.EndsWithin d.commandAliasLinks spelling d.commandAliases.size ∧
      (∀ command, d.commandAliasTarget? spelling = some command
        ↔ command ∈ d.commands.keys ∧ EndsAt d.CommandAliasOf spelling command) ∧
      (d.commandAliasTarget? spelling = none ↔ LeadsToCycle d.CommandAliasOf spelling)) := by
  refine ⟨?_, fun hnames v hv halias ↦ ?_, fun hd spelling hspelling ↦ ?_⟩
  · have hends : Chain.EndsWithin (aliasLinks types) name types.size :=
      Chain.endsWithin _ name (List.length_filterMap_le _ _)
    exact ⟨hends, fun _ ↦ aliasTarget_eq_ok_iff, aliasTarget_rejects_cyclic_iff,
      aliasTarget_nameless_iff, aliasTarget_rejects_dangling_iff⟩
  · have hends : Chain.EndsWithin (ResultPartition.valueLinks decl) v.name decl.values.length :=
      Chain.endsWithin _ v.name (List.length_filterMap_le _ _)
    exact ⟨hends, fun _ ↦ EnumMembers.aliasTerminal?_eq_some_iff hnames,
      EnumMembers.aliasTerminal?_eq_none_iff hnames hv halias⟩
  · have hends : Chain.EndsWithin d.commandAliasLinks spelling d.commandAliases.size :=
      Chain.endsWithin _ spelling (List.length_map _).le
    exact ⟨hends, fun _ ↦ Document.commandAliasTarget?_eq_some_iff,
      hd.commandAliasTarget?_eq_none_iff hspelling⟩

/-- Aliases of each kind: the types run into a cycle, the values and the commands do not. -/
def spellingsRegistry : Element :=
  ⟨"registry", [], "", [
    ⟨"types", [], "", [
      ⟨"type", [("category", "struct"), ("name", "XrFirst"), ("alias", "XrSecond")], "", [], ""⟩,
      ⟨"type", [("category", "struct"), ("name", "XrSecond"), ("alias", "XrThird")], "", [], ""⟩,
      ⟨"type", [("category", "struct"), ("name", "XrThird"), ("alias", "XrSecond")], "", [], ""⟩],
      ""⟩,
    ⟨"enums", [("name", "XrMode")], "", [
      ⟨"enum", [("name", "XR_MODE_SHOW_EXT"), ("alias", "XR_MODE_SHOW_KHR")], "", [], ""⟩,
      ⟨"enum", [("name", "XR_MODE_SHOW_KHR"), ("alias", "XR_MODE_SHOW")], "", [], ""⟩,
      ⟨"enum", [("name", "XR_MODE_SHOW"), ("value", "1")], "", [], ""⟩], ""⟩,
    ⟨"commands", [], "", [
      ⟨"command", [("name", "xrPollEXT"), ("alias", "xrPollKHR")], "", [], ""⟩,
      ⟨"command", [("name", "xrPollKHR"), ("alias", "xrPoll")], "", [], ""⟩,
      ⟨"command", [], "", [⟨"proto", [], "", [
        ⟨"type", [], "void", [], " "⟩, ⟨"name", [], "xrPoll", [], ""⟩], ""⟩], ""⟩], ""⟩], ""⟩

def spellingsEnum : EnumDecl where
  name := "XrMode"
  kind := "enum"
  values := [
    { name := some "XR_MODE_SHOW_EXT", meaning := .aliasOf "XR_MODE_SHOW_KHR", origin := "core" },
    { name := some "XR_MODE_SHOW_KHR", meaning := .aliasOf "XR_MODE_SHOW", origin := "core" },
    { name := some "XR_MODE_SHOW", meaning := .number 1, origin := "core" }]

def spellingsDocument : Document where
  tags := []
  types := Table.ofList [
    (some "XrFirst", .aliasOf (some "XrFirst") "XrSecond" "struct"),
    (some "XrSecond", .aliasOf (some "XrSecond") "XrThird" "struct"),
    (some "XrThird", .aliasOf (some "XrThird") "XrSecond" "struct")]
  enums := Table.ofList [("XrMode", spellingsEnum)]
  commands := Table.ofList [
    ("xrPoll", { name := "xrPoll", returns := { name := "", typeName := "void" }, params := [] })]
  commandAliases := Table.ofList [
    ("xrPollEXT", { name := "xrPollEXT", target := "xrPollKHR" }),
    ("xrPollKHR", { name := "xrPollKHR", target := "xrPoll" })]
  apiConstants := .empty
  features := []
  extensions := []
  origins := .empty
  version := "unknown"

set_option maxRecDepth 10000 in
theorem spellingsDocument_accepted : spellingsDocument.Accepted :=
  ⟨spellingsRegistry, by with_unfolding_all rfl⟩

/-- The value at which the chain of values starts. -/
def spellingsValue : EnumValue where
  name := some "XR_MODE_SHOW_EXT"
  meaning := .aliasOf "XR_MODE_SHOW_KHR"
  origin := "core"

theorem leadsToCycle_spellingsDocument :
    LeadsToCycle (AliasOf spellingsDocument.types) (some "XrFirst") := by
  have hfirst : AliasOf spellingsDocument.types (some "XrFirst") (some "XrSecond") :=
    ⟨_, "XrSecond", rfl, rfl, rfl⟩
  have hsecond : AliasOf spellingsDocument.types (some "XrSecond") (some "XrThird") :=
    ⟨_, "XrThird", rfl, rfl, rfl⟩
  have hthird : AliasOf spellingsDocument.types (some "XrThird") (some "XrSecond") :=
    ⟨_, "XrSecond", rfl, rfl, rfl⟩
  exact ⟨some "XrSecond", .single hfirst, .head hsecond (.single hthird)⟩

theorem endsAt_spellingsEnum :
    EndsAt (ValueAliasOf spellingsEnum) spellingsValue.name (some "XR_MODE_SHOW") := by
  have hnames : (spellingsEnum.values.map (·.name)).Nodup := by decide
  have hfirst : ValueAliasOf spellingsEnum spellingsValue.name (some "XR_MODE_SHOW_KHR") :=
    ⟨spellingsValue, by decide, rfl, "XR_MODE_SHOW_KHR", rfl, rfl⟩
  have hsecond : ValueAliasOf spellingsEnum (some "XR_MODE_SHOW_KHR") (some "XR_MODE_SHOW") :=
    ⟨{ name := some "XR_MODE_SHOW_KHR", meaning := .aliasOf "XR_MODE_SHOW", origin := "core" },
      by decide, rfl, "XR_MODE_SHOW", rfl, rfl⟩
  refine ⟨.head hfirst (.single hsecond), ?_⟩
  exact ResultPartition.not_valueAliasOf hnames
    (v := { name := some "XR_MODE_SHOW", meaning := .number 1, origin := "core" }) (by decide) rfl

theorem endsAt_spellingsDocument :
    EndsAt spellingsDocument.CommandAliasOf "xrPollEXT" "xrPoll" := by
  have hfirst : spellingsDocument.CommandAliasOf "xrPollEXT" "xrPollKHR" := ⟨_, rfl, rfl⟩
  have hsecond : spellingsDocument.CommandAliasOf "xrPollKHR" "xrPoll" := ⟨_, rfl, rfl⟩
  refine ⟨.head hfirst (.single hsecond), fun target h ↦ ?_⟩
  exact absurd h.left_mem_keys (by decide)

/-- The types are rejected as cyclic, at a cycle that does not hold the first of them; the value and
the command are found. -/
theorem aliasWalks_end_spellings :
    spellingsDocument.Accepted ∧
      (∃ e, aliasTarget spellingsDocument.types (some "XrFirst") = reject e ∧
        e.code = .cyclicTypeDependency) ∧
      (spellingsEnum.values.map (·.name)).Nodup ∧ spellingsValue ∈ spellingsEnum.values ∧
      spellingsValue.isAlias = true ∧
      EnumMembers.aliasTerminal? spellingsEnum spellingsValue = some "XR_MODE_SHOW" ∧
      "xrPollEXT" ∈ spellingsDocument.commandAliases.keys ∧
      spellingsDocument.commandAliasTarget? "xrPollEXT" = some "xrPoll" := by
  obtain ⟨⟨-, -, hcyclic, -⟩, hvalues, hcommands⟩ :=
    aliasWalks_end spellingsDocument.types (some "XrFirst") spellingsEnum spellingsDocument
  have hnames : (spellingsEnum.values.map (·.name)).Nodup := by decide
  have hvalue : spellingsValue ∈ spellingsEnum.values := by decide
  have hcommand : "xrPollEXT" ∈ spellingsDocument.commandAliases.keys := by decide
  obtain ⟨-, hterminal, -⟩ := hvalues hnames spellingsValue hvalue rfl
  obtain ⟨-, htarget, -⟩ := hcommands spellingsDocument_accepted _ hcommand
  refine ⟨spellingsDocument_accepted, hcyclic.mpr ⟨by simp, leadsToCycle_spellingsDocument⟩, hnames,
    hvalue, rfl, (hterminal "XR_MODE_SHOW").mpr ?_, hcommand, (htarget "xrPoll").mpr ?_⟩
  · exact ⟨{ name := some "XR_MODE_SHOW", meaning := .number 1, origin := "core" }, by decide, rfl,
      rfl, endsAt_spellingsEnum⟩
  · exact ⟨by decide, endsAt_spellingsDocument⟩

/-- In an accepted document the walk from a missing name runs into a cycle and is not rejected. -/
theorem aliasTarget_namelessDocument :
    namelessDocument.Accepted ∧ none ∈ namelessDocument.types.keys ∧
      LeadsToCycle (AliasOf namelessDocument.types) none ∧
      ¬∃ e, aliasTarget namelessDocument.types none = reject e ∧
        e.code = .cyclicTypeDependency := by
  have hfirst : AliasOf namelessDocument.types none (some "XrLoop") :=
    ⟨_, "XrLoop", rfl, rfl, rfl⟩
  have hloop : AliasOf namelessDocument.types (some "XrLoop") (some "XrLoop") :=
    ⟨_, "XrLoop", rfl, rfl, rfl⟩
  have hresult : aliasTarget namelessDocument.types none = .error .namelessCycle := by
    with_unfolding_all rfl
  refine ⟨⟨namelessRegistry, rfl⟩, by decide, ⟨some "XrLoop", .single hfirst, .single hloop⟩, ?_⟩
  rintro ⟨e, he, -⟩
  exact absurd (Except.error.inj (hresult.symm.trans he)) (by simp)

end XrBindings
