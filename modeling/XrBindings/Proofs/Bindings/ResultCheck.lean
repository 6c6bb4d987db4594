import XrBindings.Proofs.Bindings.Wrapper
import XrBindings.Proofs.Command.ResultPartition

/-!
# Commands whose results are checked

A wrapper checks the result of its command where the signature has the split of an enum. The split
is looked up by the name that the command gives for its result, not by the enum that this name
stands for. So a result is checked exactly if the command names the enum itself; another spelling of
it gives a wrapper that hands the code on.
-/

namespace XrBindings

open XrBindings.Text XrBindings.Xml

variable {d : Document} {c : Context} {command : CommandDecl} {s : WrapperSignature}
  {p : ResultPartition} {name : String} {decl : EnumDecl}

/-! ## Signatures -/

theorem CommandDecl.partition_of_lower {partitions : Table String ResultPartition}
    (hpointers : command.returns.pointers = []) (h : command.lower partitions = .ok s) :
    s.partition = partitions.get? command.returns.typeName := by
  obtain ⟨links, -, h⟩ := Result.bind_eq_ok_iff.mp h
  rw [← Result.pure_eq_ok_iff.mp h, hpointers]
  rfl

/-! ## Wrappers -/

/-- The call of a command. -/
def WrapperSignature.call (s : WrapperSignature) (arguments : List String) : String :=
  "self." ++ s.command.name ++ ".?(" ++ joinWith ", " arguments ++ ")"

/-- Lines of a wrapper hand what the command returns to the check of an enum. -/
def Context.ChecksResult (c : Context) (s : WrapperSignature) (enumName : String)
    (lines : List String) : Prop :=
  ∃ check arguments, c.checkName enumName = .ok check ∧ arguments.length = s.params.length ∧
    "        " ++ ("try " ++ check ++ "(" ++ s.call arguments ++ ");") ∈ lines

/-- With a split the wrapper goes through the check of its enum. -/
theorem Context.checksResult_of_wrapperSource {lines : List String} (hp : s.partition = some p)
    (h : c.wrapperSource s = .ok lines) : c.ChecksResult s p.enumName lines := by
  obtain ⟨parts, hparts, h⟩ := Result.bind_eq_ok_iff.mp h
  obtain ⟨outputs, -, h⟩ := Result.bind_eq_ok_iff.mp h
  obtain ⟨⟨returnType, statements⟩, hcall, h⟩ := Result.bind_eq_ok_iff.mp h
  obtain ⟨name, -, h⟩ := Result.bind_eq_ok_iff.mp h
  rw [callAndReturn, hp] at hcall
  obtain ⟨errorSet, -, hcall⟩ := Result.bind_eq_ok_iff.mp hcall
  obtain ⟨check, hcheck, hcall⟩ := Result.bind_eq_ok_iff.mp hcall
  obtain ⟨-, hstatements⟩ := Prod.mk.inj (Result.pure_eq_ok_iff.mp hcall)
  refine ⟨check, parts.map (·.argument), hcheck, ?_, ?_⟩
  · rw [List.length_map, (Result.mapM_eq_ok_iff.mp hparts).length_eq]
  · rw [← Result.pure_eq_ok_iff.mp h, ← hstatements]
    simp [WrapperSignature.call]

/-! ## The result -/

/-- **Which results are checked.** Let a command of an accepted document return a name that stands
for an enum that is no set of flags. Unless a length is ambiguous, it has a signature. This has the
split of the enum exactly if the name is no alias, and then every wrapper of the command checks what
the command returns; there is a wrapper if the names and types that it needs are written and the
parameters differ. With an alias that is no enum of its own there is no split. -/
theorem result_checked_iff (hd : d.Accepted) (hc : Context.ofDocument d = .ok c)
    (hcommand : command ∈ d.commands.values) (hpointers : command.returns.pointers = [])
    (hends : EndsAt (AliasOf d.types) (some command.returns.typeName) (some name))
    (hdecl : d.enums.get? name = some decl) (hflags : decl.isBitmask = false) :
    (∃ error, command.lower c.partitions = .error (.rejected error) ∧
      error.code = .ambiguousLengthLink) ∨
    ∃ s, command.lower c.partitions = .ok s ∧
      ((∃ p, s.partition = some p ∧ p.enumName = name) ↔
        ∀ b, ¬AliasOf d.types (some command.returns.typeName) b) ∧
      (∀ p, s.partition = some p → p.enumName = name →
        c.partitions.get? name = some p ∧
        (∀ lines, c.wrapperSource s = .ok lines → c.ChecksResult s name lines) ∧
        RejectsOnly TooLong (c.wrapperSource s) ∧
        ((command.params.map (·.name)).Nodup → ∀ type wrapperName enumType,
          c.functionType command.returns command.params = .ok type →
          c.renderer.commandName command.name = .ok wrapperName →
          c.declaredName (some name) = .ok enumType →
          ∃ lines, c.wrapperSource s = .ok lines)) ∧
      (command.returns.typeName ∉ d.enums.keys → s.partition = none) := by
  by_cases hlower : ∃ s, command.lower c.partitions = .ok s
  swap
  · obtain ⟨e, he⟩ := Result.exists_eq_error_iff.mpr hlower
    obtain ⟨error, rfl, hambiguous⟩ := CommandDecl.of_lower_eq_error he
    exact Or.inl ⟨error, he, hambiguous⟩
  obtain ⟨s, hs⟩ := hlower
  have hclosed := hd.closed hc
  obtain ⟨rfl, -, hpartitions⟩ := Context.ofDocument_eq_ok hc
  have hn := hd.consistent.enums_named
  have hpartition := CommandDecl.partition_of_lower hpointers hs
  -- What stands in the signature is the split of the enum of this name, if there is one.
  have hentry : ∀ p, s.partition = some p → p.enumName = command.returns.typeName := fun p hp ↦
    enumName_of_get?_partitions hn hpartitions (hpartition ▸ hp)
  obtain ⟨hsame, hparams⟩ := CommandDecl.of_lower_eq_ok hs
  refine Or.inr ⟨s, hs, ⟨?_, fun hend ↦ ?_⟩, fun p hp hname ↦ ⟨?_, fun lines hlines ↦ ?_, ?_,
    fun hnames type wrapperName enumType htype hwrapper henum ↦ ?_⟩, fun hforeign ↦ ?_⟩
  · rintro ⟨p, hp, hname⟩
    rw [← hentry p hp, hname]
    exact hends.2
  · have hname : command.returns.typeName = name :=
      Option.some.inj ((EndsAt.refl hend).unique rightUnique_aliasOf hends)
    have hreturns : c.document.ReturnsEnum name decl :=
      ⟨hdecl, hflags, command, hcommand, hpointers, hname⟩
    obtain ⟨p, hp⟩ := exists_get?_partitions hn hpartitions hreturns
    exact ⟨p, by rw [hpartition, hname, hp], enumName_of_get?_partitions hn hpartitions hp⟩
  · rw [← hname, hentry p hp, ← hpartition, hp]
  · exact hname ▸ Context.checksResult_of_wrapperSource hp hlines
  · refine Context.rejectsOnly_wrapperSource hclosed ?_
    rw [hsame, hparams]
    exact fun f hf ↦ hclosed.knows _ (.command hcommand hf)
  · refine Context.exists_wrapperSource hclosed hnames
      (CommandDecl.params_eq_of_lower hnames hs) hsame htype hwrapper fun q hq ↦ ⟨enumType, ?_⟩
    rw [Option.some.inj (hq.symm.trans hp), hname, henum]
  · rw [hpartition, get?_partitions_eq_none hn hpartitions hforeign]

/-- An enum with two spellings, and two commands that return it, each by one of them. -/
def spelledRegistry : Element :=
  ⟨"registry", [], "", [
    ⟨"types", [], "", [
      ⟨"type", [("category", "enum"), ("name", "XrResult")], "", [], ""⟩,
      ⟨"type", [("category", "enum"), ("name", "XrResultEXT"), ("alias", "XrResult")], "", [], ""⟩],
      ""⟩,
    ⟨"enums", [("name", "XrResult")], "", [
      ⟨"enum", [("name", "XR_SUCCESS"), ("value", "0")], "", [], ""⟩,
      ⟨"enum", [("name", "XR_ERROR_LOST"), ("value", "-1")], "", [], ""⟩], ""⟩,
    ⟨"commands", [], "", [
      ⟨"command", [], "", [
        ⟨"proto", [], "", [⟨"type", [], "XrResult", [], ""⟩, ⟨"name", [], "xrPoll", [], ""⟩], ""⟩],
        ""⟩,
      ⟨"command", [], "", [
        ⟨"proto", [], "", [
          ⟨"type", [], "XrResultEXT", [], ""⟩, ⟨"name", [], "xrPollEXT", [], ""⟩], ""⟩],
        ""⟩], ""⟩], ""⟩

def spelledResult : EnumDecl where
  name := "XrResult"
  kind := "enum"
  values := [
    { name := some "XR_SUCCESS", meaning := .number 0, origin := "core" },
    { name := some "XR_ERROR_LOST", meaning := .number (-1), origin := "core" }]

def spelledPoll : CommandDecl where
  name := "xrPoll"
  returns := { name := "", typeName := "XrResult" }
  params := []

def spelledPollEXT : CommandDecl where
  name := "xrPollEXT"
  returns := { name := "", typeName := "XrResultEXT" }
  params := []

def spelledDocument : Document where
  tags := []
  types := Table.ofList [
    (some "XrResult", .enum "XrResult"),
    (some "XrResultEXT", .aliasOf "XrResultEXT" "XrResult" "enum")]
  enums := Table.ofList [("XrResult", spelledResult)]
  commands := Table.ofList [("xrPoll", spelledPoll), ("xrPollEXT", spelledPollEXT)]
  commandAliases := .empty
  apiConstants := .empty
  features := []
  extensions := []
  origins := .empty
  version := "unknown"

set_option maxRecDepth 20000 in
theorem spelledDocument_accepted : spelledDocument.Accepted :=
  ⟨spelledRegistry, by with_unfolding_all rfl⟩

theorem exists_ofDocument_spelledDocument : ∃ c, Context.ofDocument spelledDocument = .ok c :=
  Result.exists_eq_ok_of_isOk (by decide +kernel)

/-- The command that names the enum has its split. -/
theorem result_checked_iff_spelled :
    spelledDocument.Accepted ∧ spelledPoll ∈ spelledDocument.commands.values ∧
      spelledPoll.returns.pointers = [] ∧
      spelledDocument.enums.get? "XrResult" = some spelledResult ∧
      spelledResult.isBitmask = false ∧
      ∃ c s p, Context.ofDocument spelledDocument = .ok c ∧
        spelledPoll.lower c.partitions = .ok s ∧ s.partition = some p ∧
        p.enumName = "XrResult" := by
  obtain ⟨c, hc⟩ := exists_ofDocument_spelledDocument
  have hcommand : spelledPoll ∈ spelledDocument.commands.values := List.mem_cons_self
  have hend : ∀ b, ¬AliasOf spelledDocument.types (some "XrResult") b := by
    rw [← step_aliasLinks]
    exact Chain.not_step_of_lookup rfl
  have hdecl : spelledDocument.enums.get? "XrResult" = some spelledResult := rfl
  refine ⟨spelledDocument_accepted, hcommand, rfl, hdecl, rfl, ?_⟩
  obtain ⟨error, herror, -⟩ | ⟨s, hs, hchecked, -, -⟩ :=
    result_checked_iff spelledDocument_accepted hc hcommand rfl (.refl hend) hdecl rfl
  · have hlinks : spelledPoll.lengthLinks = .ok .empty := rfl
    rw [CommandDecl.lower, hlinks] at herror
    exact absurd herror Result.pure_ne_error
  · obtain ⟨p, hp, hname⟩ := hchecked.mpr hend
    exact ⟨c, s, p, hc, hs, hp, hname⟩

/-- The command that names the alias has none, although the alias stands for the same enum. -/
theorem result_unchecked_spelled :
    spelledDocument.Accepted ∧ spelledPollEXT ∈ spelledDocument.commands.values ∧
      spelledPollEXT.returns.pointers = [] ∧
      EndsAt (AliasOf spelledDocument.types) (some spelledPollEXT.returns.typeName)
        (some "XrResult") ∧
      spelledDocument.enums.get? "XrResult" = some spelledResult ∧
      spelledResult.isBitmask = false ∧
      ∃ c s, Context.ofDocument spelledDocument = .ok c ∧
        spelledPollEXT.lower c.partitions = .ok s ∧ s.partition = none := by
  obtain ⟨c, hc⟩ := exists_ofDocument_spelledDocument
  have hends : EndsAt (AliasOf spelledDocument.types) (some "XrResultEXT") (some "XrResult") := by
    rw [← step_aliasLinks]
    exact ⟨.single rfl, Chain.not_step_of_lookup rfl⟩
  refine ⟨spelledDocument_accepted, List.mem_cons_of_mem _ (List.mem_singleton_self _), rfl, hends,
    rfl, rfl, c, _, hc, rfl, ?_⟩
  -- The name of the alias is no enum.
  obtain ⟨-, -, hpartitions⟩ := Context.ofDocument_eq_ok hc
  exact get?_partitions_eq_none spelledDocument_accepted.consistent.enums_named hpartitions
    (by decide)

end XrBindings
