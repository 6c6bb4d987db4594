import XrBindings.Proofs.Bindings.EnumLayout
import XrBindings.Proofs.Bindings.Scope

/-!
# Discriminants

A discriminant is set to a value of its enum, which the registry gives by name. The field for this
value is known from the layout of the enum, but the layout is looked up under the name that the
discriminant gives for its type, not under that of the enum which it stands for. If the two are the
same, a field of the enum is written, and the right one. Beside another spelling, the name of the
value is rendered as if the spelling were the name of the enum. Then it is a matter of luck whether
the enum has a field of that name.
-/

namespace XrBindings

open Relation XrBindings.Naming XrBindings.Xml

variable {d : Document} {c : Context} {decl : EnumDecl} {f : Field} {fields : List Field}
  {sections : List (List String)} {lines : List String} {name declared block value literal : String}
  {extended : List String} {returnedOnly : Bool}

namespace Context

/-! ## What is written for a discriminant -/

/-- The line that sets a discriminant. -/
def settingLine (fieldName literal : String) : String :=
  "        value." ++ fieldName ++ " = " ++ literal ++ ";"

theorem exists_settingLine (h : c.structSource declared fields = .ok lines) (hf : f ∈ fields)
    (hdiscriminant : f.isDiscriminant = true) :
    ∃ literal fieldName, c.discriminantLiteral f = .ok literal ∧
      c.renderer.fieldName f.name = .ok fieldName ∧ settingLine fieldName literal ∈ lines := by
  obtain ⟨defaults, -, h⟩ := Result.bind_eq_ok_iff.mp h
  obtain ⟨fieldLines, -, h⟩ := Result.bind_eq_ok_iff.mp h
  dsimp only at h
  rw [if_pos (List.any_eq_true.mpr ⟨f, hf, hdiscriminant⟩)] at h
  obtain ⟨function, hfunction, h⟩ := Result.bind_eq_ok_iff.mp h
  obtain ⟨settings, hsettings, hfunction⟩ := Result.bind_eq_ok_iff.mp hfunction
  obtain ⟨setting, hmem, hsetting⟩ := Result.exists_of_mapM hsettings hf
  rw [settingLines, if_pos hdiscriminant] at hsetting
  obtain ⟨literal, hliteral, hsetting⟩ := Result.bind_eq_ok_iff.mp hsetting
  obtain ⟨fieldName, hname, hsetting⟩ := Result.bind_eq_ok_iff.mp hsetting
  have hline : settingLine fieldName literal ∈ settings.flatten :=
    List.mem_flatten.mpr
      ⟨setting, hmem, Result.pure_eq_ok_iff.mp hsetting ▸ List.mem_singleton_self _⟩
  refine ⟨literal, fieldName, hliteral, hname, ?_⟩
  rw [← Result.pure_eq_ok_iff.mp h, ← Result.pure_eq_ok_iff.mp hfunction]
  simp [hline]

/-- A struct that can be extended starts with its first discriminant set. The link of the chain
comes later, so it wins if the discriminant has its name. -/
theorem get?_structDefaults {chain : Field}
    (hfirst : fields.find? (·.isDiscriminant) = some f)
    (hchain : fields.find? (·.isNextChain) = some chain)
    (hliteral : c.discriminantLiteral f = .ok literal) :
    ∃ defaults, c.structDefaults fields = .ok defaults ∧
      defaults.get? f.name = some (if f.name = "next" then "null" else literal) := by
  have hnext : chain.name = "next" := by
    have hlinks := List.find?_some hchain
    simp only [Field.isNextChain, Bool.and_eq_true, beq_iff_eq] at hlinks
    exact hlinks.1
  rw [structDefaults, hfirst, hchain]
  simp only [hliteral, hnext]
  refine ⟨_, rfl, ?_⟩
  rw [Table.ofList, List.foldl_cons, List.foldl_cons, List.foldl_nil]
  split_ifs with h
  · rw [h, Table.get?_insert_self]
  · rw [Table.get?_insert_of_ne _ h, Table.get?_insert_self]

/-! ## Fields that are named -/

/-- The literal is a field of the enum, and its integer is the one that the value denotes. -/
def NamesField (c : Context) (decl : EnumDecl) (value literal : String) : Prop :=
  ∃ m, c.enumMembers decl = .ok m ∧ ∃ g ∈ m.fields, literal = "." ++ g.name ∧
    ResultPartition.Denotes decl (some value) g.value

/-- The literals that name fields of an enum are those that are written beside its own name. -/
theorem namesField_iff (hd : (decl.values.map (·.name)).Nodup)
    (hdecl : c.document.enums.get? block = some decl) :
    c.NamesField decl value literal ↔ c.enumLiteral block value = .ok literal := by
  rw [NamesField, enumLiteral, hdecl]
  dsimp only
  rw [Result.bind_eq_ok_iff]
  refine exists_congr fun m ↦ and_congr_right fun hm ↦ ?_
  have hpresents := EnumMembers.presents_ofDecl hd hm
  constructor
  · rintro ⟨g, hg, rfl, hk⟩
    have hmem := EnumMembers.mem_names_of_denotes hk
    rw [(hpresents.get?_tags_iff value g.name).mpr ⟨hmem, g, hg, rfl, hk⟩]
    rfl
  · intro h
    split at h
    · next tag htag =>
      obtain ⟨-, g, hg, rfl, hk⟩ := (hpresents.get?_tags_iff value tag).mp htag
      exact ⟨g, hg, (Result.pure_eq_ok_iff.mp h).symm, hk⟩
    · exact absurd h Result.reject_ne_ok

/-- The values that are written are the first ones that the registry gives. -/
theorem discriminantLiteral_eq_ok (h : c.discriminantLiteral f = .ok literal) :
    ∃ value, (Declarator.listAttribute f.values).head? = some value ∧
      c.enumLiteral f.typeName value = .ok literal := by
  rw [discriminantLiteral] at h
  split at h
  · cases h
  · next value rest hvalues => exact ⟨value, by rw [hvalues, List.head?_cons], h⟩

theorem exists_structSource (hd : d.Accepted) (hc : Context.ofDocument d = .ok c)
    (h : c.sections = .ok sections)
    (hstruct : .struct name fields extended returnedOnly ∈ d.types.values) :
    ∃ lines ∈ sections, ∃ declared,
      c.declarationSource (.struct name fields extended returnedOnly) = .ok lines ∧
      c.structSource declared fields = .ok lines := by
  obtain ⟨rfl, hgraph, -⟩ := ofDocument_eq_ok hc
  obtain ⟨-, horder, -⟩ := typeGraph_eq_ok hgraph
  have hdeclared : .struct name fields extended returnedOnly ∈ c.declaredTypes :=
    mem_declaredTypes_iff.mpr ⟨(mem_typeOrder_iff hd.consistent.types_named horder).mpr
      (mem_properDeclarations_iff.mpr ⟨hstruct, rfl⟩), rfl⟩
  obtain ⟨_, _, _, _, types, _, _, _, _, _, _, _, -, -, -, -, htypes, -, -, -, -, -, rfl⟩ :=
    sections_eq_ok h
  obtain ⟨lines, hlines, hsource⟩ := Result.exists_of_mapM (typeSections_eq_ok htypes).1 hdeclared
  obtain ⟨declared, -, hstructSource⟩ := Result.bind_eq_ok_iff.mp hsource
  exact ⟨lines, by simp [hlines], declared, hsource, hstructSource⟩

end Context

open Context

/-! ## The result -/

/-- **Discriminants.** In the bindings of an accepted document, a discriminant whose type stands for
an enum is set to the first value that the registry gives, and a struct that can be extended starts
with its first discriminant set so. What is written is a field of the enum with the integer of the
value if the type is given by the name of the enum itself; and in general it is one exactly if the
same would be written beside that name. Beside a spelling that is no enum of its own, the name of
the value is rendered as it is. -/
theorem discriminant_namesField_iff (hd : d.Accepted) (hc : Context.ofDocument d = .ok c)
    (h : c.sections = .ok sections)
    (hstruct : .struct name fields extended returnedOnly ∈ d.types.values) (hf : f ∈ fields)
    (hdiscriminant : f.isDiscriminant = true)
    (hends : EndsAt (AliasOf d.types) (some f.typeName) (some block))
    (hdecl : d.enums.get? block = some decl) :
    ∃ value literal, (Declarator.listAttribute f.values).head? = some value ∧
      c.discriminantLiteral f = .ok literal ∧
      (∃ lines ∈ sections, ∃ fieldName,
        c.declarationSource (.struct name fields extended returnedOnly) = .ok lines ∧
        c.renderer.fieldName f.name = .ok fieldName ∧ settingLine fieldName literal ∈ lines) ∧
      (∀ chain, fields.find? (·.isDiscriminant) = some f →
        fields.find? (·.isNextChain) = some chain →
        ∃ defaults, c.structDefaults fields = .ok defaults ∧
          defaults.get? f.name = some (if f.name = "next" then "null" else literal)) ∧
      ((∀ b, ¬AliasOf d.types (some f.typeName) b) → c.NamesField decl value literal) ∧
      (c.NamesField decl value literal ↔ c.enumLiteral block value = .ok literal) ∧
      (f.typeName ∉ d.enums.keys →
        literal = "." ++ c.renderer.enumValueName f.typeName value false) := by
  have hnames := (hd.consistent.enums_named block decl hdecl).2
  obtain ⟨lines, hlines, declared, hsource, hstructSource⟩ := exists_structSource hd hc h hstruct
  obtain ⟨rfl, -, -⟩ := ofDocument_eq_ok hc
  obtain ⟨literal, fieldName, hliteral, hname, hline⟩ :=
    exists_settingLine hstructSource hf hdiscriminant
  obtain ⟨value, hvalue, henum⟩ := discriminantLiteral_eq_ok hliteral
  refine ⟨value, literal, hvalue, hliteral, ⟨lines, hlines, fieldName, hsource, hname, hline⟩,
    fun chain hfirst hchain ↦ get?_structDefaults hfirst hchain hliteral, fun hend ↦ ?_,
    namesField_iff hnames hdecl, fun hforeign ↦ ?_⟩
  · -- A name that is no alias is the name of the enum.
    have hblock : f.typeName = block :=
      Option.some.inj ((EndsAt.refl hend).unique rightUnique_aliasOf hends)
    exact (namesField_iff hnames hdecl).mpr (hblock ▸ henum)
  · rw [enumLiteral, (Table.get?_eq_none_iff _ _).mpr hforeign] at henum
    exact (Except.ok.inj henum).symm

/-! ### Both spellings of an enum -/

/-- A struct that can be extended, as an element. -/
def kindStruct (name type value : String) : Element :=
  ⟨"type", [("category", "struct"), ("name", name)], "", [
    ⟨"member", [("values", value)], "", [
      ⟨"type", [], type, [], " "⟩, ⟨"name", [], "kind", [], ""⟩], ""⟩,
    ⟨"member", [], "", [⟨"type", [], "void", [], "* "⟩, ⟨"name", [], "next", [], ""⟩], ""⟩], ""⟩

/-- An enum with two spellings, and two structs whose discriminants give its type, each by one of
them. -/
def kindRegistry : Element :=
  ⟨"registry", [], "", [
    ⟨"types", [], "", [
      ⟨"type", [("category", "enum"), ("name", "XrType")], "", [], ""⟩,
      ⟨"type", [("category", "enum"), ("name", "XrKind"), ("alias", "XrType")], "", [], ""⟩,
      kindStruct "XrThing" "XrType" "XR_TYPE_THING", kindStruct "XrPart" "XrKind" "XR_TYPE_PART"],
      ""⟩,
    ⟨"enums", [("name", "XrType")], "", [
      ⟨"enum", [("name", "XR_TYPE_THING"), ("value", "1")], "", [], ""⟩,
      ⟨"enum", [("name", "XR_TYPE_PART"), ("value", "2")], "", [], ""⟩], ""⟩], ""⟩

def kindField (type value : String) : Field := { name := "kind", typeName := type, values := value }

def kindFields (type value : String) : List Field :=
  [kindField type value,
    { name := "next", typeName := "void", pointers := [{ nullable := false, constant := false }] }]

def kindEnum : EnumDecl where
  name := "XrType"
  kind := "enum"
  values := [
    { name := some "XR_TYPE_THING", meaning := .number 1, origin := "core" },
    { name := some "XR_TYPE_PART", meaning := .number 2, origin := "core" }]

def kindDocument : Document where
  tags := []
  types := Table.ofList [
    (some "XrType", .enum "XrType"),
    (some "XrKind", .aliasOf "XrKind" "XrType" "enum"),
    (some "XrThing", .struct "XrThing" (kindFields "XrType" "XR_TYPE_THING") [] false),
    (some "XrPart", .struct "XrPart" (kindFields "XrKind" "XR_TYPE_PART") [] false)]
  enums := Table.ofList [("XrType", kindEnum)]
  commands := .empty
  commandAliases := .empty
  apiConstants := .empty
  features := []
  extensions := []
  origins := .empty
  version := "unknown"

set_option maxRecDepth 20000 in
theorem kindDocument_accepted : kindDocument.Accepted :=
  ⟨kindRegistry, by with_unfolding_all rfl⟩

def kindContext : Context where
  document := kindDocument
  graph := {
    order := [.enum "XrType", .struct "XrThing" (kindFields "XrType" "XR_TYPE_THING") [] false,
      .struct "XrPart" (kindFields "XrKind" "XR_TYPE_PART") [] false]
    canonical := Table.ofList [
      (some "XrType", some "XrType"), (some "XrKind", some "XrType"),
      (some "XrThing", some "XrThing"), (some "XrPart", some "XrPart")]
    aliases := [(some "XrKind", some "XrType")] }
  renderer := ⟨[]⟩
  partitions := .empty
  flagOwners := .empty

theorem ofDocument_kindDocument : Context.ofDocument kindDocument = .ok kindContext := by
  with_unfolding_all rfl

theorem literals_kindContext :
    kindContext.sections.isOk = true ∧ kindContext.renderer.fieldName "kind" = .ok "kind" ∧
      kindContext.discriminantLiteral (kindField "XrType" "XR_TYPE_THING") = .ok ".thing" ∧
      kindContext.discriminantLiteral (kindField "XrKind" "XR_TYPE_PART") = .ok ".type_part" ∧
      kindContext.enumLiteral "XrType" "XR_TYPE_PART" = .ok ".part" := by decide +kernel

theorem exists_sections_kindContext : ∃ sections, kindContext.sections = .ok sections :=
  Result.exists_eq_ok_of_isOk literals_kindContext.1

/-- The discriminant under the name of the enum is set to a field of it. -/
theorem discriminant_namesField_iff_thing :
    kindDocument.Accepted ∧ Context.ofDocument kindDocument = .ok kindContext ∧
      (∃ sections, kindContext.sections = .ok sections) ∧
      .struct "XrThing" (kindFields "XrType" "XR_TYPE_THING") [] false
        ∈ kindDocument.types.values ∧
      kindField "XrType" "XR_TYPE_THING" ∈ kindFields "XrType" "XR_TYPE_THING" ∧
      (kindField "XrType" "XR_TYPE_THING").isDiscriminant = true ∧
      EndsAt (AliasOf kindDocument.types) (some "XrType") (some "XrType") ∧
      kindDocument.enums.get? "XrType" = some kindEnum ∧
      kindContext.NamesField kindEnum "XR_TYPE_THING" ".thing" := by
  obtain ⟨sections, hsections⟩ := exists_sections_kindContext
  have hstruct : .struct "XrThing" (kindFields "XrType" "XR_TYPE_THING") [] false
      ∈ kindDocument.types.values := by decide
  have hend : ∀ b, ¬AliasOf kindDocument.types (some "XrType") b := by
    rw [← step_aliasLinks]
    exact Chain.not_step_of_lookup rfl
  obtain ⟨value, literal, hvalue, hliteral, -, -, hnames, -, -⟩ :=
    discriminant_namesField_iff kindDocument_accepted ofDocument_kindDocument hsections hstruct
      List.mem_cons_self rfl (.refl hend) rfl
  obtain rfl : "XR_TYPE_THING" = value := by
    have hfirst : (Declarator.listAttribute (some "XR_TYPE_THING")).head?
        = some "XR_TYPE_THING" := by decide
    exact Option.some.inj (hfirst.symm.trans hvalue)
  obtain rfl := Except.ok.inj (literals_kindContext.2.2.1.symm.trans hliteral)
  exact ⟨kindDocument_accepted, ofDocument_kindDocument, ⟨sections, hsections⟩, hstruct,
    List.mem_cons_self, rfl, .refl hend, rfl, hnames hend⟩

/-- The discriminant under the other spelling is set to no field of the enum. -/
theorem discriminant_misnamed_part :
    kindDocument.Accepted ∧ Context.ofDocument kindDocument = .ok kindContext ∧
      .struct "XrPart" (kindFields "XrKind" "XR_TYPE_PART") [] false ∈ kindDocument.types.values ∧
      kindField "XrKind" "XR_TYPE_PART" ∈ kindFields "XrKind" "XR_TYPE_PART" ∧
      (kindField "XrKind" "XR_TYPE_PART").isDiscriminant = true ∧
      EndsAt (AliasOf kindDocument.types) (some "XrKind") (some "XrType") ∧
      kindDocument.enums.get? "XrType" = some kindEnum ∧ kindEnum.isBitmask = false ∧
      (∃ defaults, kindContext.structDefaults (kindFields "XrKind" "XR_TYPE_PART") = .ok defaults ∧
        defaults.get? "kind" = some ".type_part") ∧
      (∃ sections, kindContext.sections = .ok sections ∧ ∃ lines ∈ sections,
        "        value.kind = .type_part;" ∈ lines) ∧
      ¬kindContext.NamesField kindEnum "XR_TYPE_PART" ".type_part" := by
  obtain ⟨sections, hsections⟩ := exists_sections_kindContext
  obtain ⟨-, hname, -, hliteral, henum⟩ := literals_kindContext
  have hstruct : .struct "XrPart" (kindFields "XrKind" "XR_TYPE_PART") [] false
      ∈ kindDocument.types.values := by decide
  have hends : EndsAt (AliasOf kindDocument.types) (some "XrKind") (some "XrType") := by
    rw [← step_aliasLinks]
    exact ⟨.single rfl, Chain.not_step_of_lookup rfl⟩
  refine ⟨kindDocument_accepted, ofDocument_kindDocument, hstruct, List.mem_cons_self, rfl, hends,
    rfl, rfl, get?_structDefaults rfl rfl hliteral, ⟨sections, hsections, ?_⟩, ?_⟩
  · obtain ⟨lines, hlines, declared, -, hsource⟩ :=
      exists_structSource kindDocument_accepted ofDocument_kindDocument hsections hstruct
    obtain ⟨literal, fieldName, hliteral', hname', hline⟩ :=
      exists_settingLine hsource List.mem_cons_self rfl
    obtain rfl := Except.ok.inj (hliteral.symm.trans hliteral')
    obtain rfl := Except.ok.inj (hname.symm.trans hname')
    exact ⟨lines, hlines, hline⟩
  · rw [namesField_iff (by decide) (rfl : kindDocument.enums.get? "XrType" = some kindEnum), henum]
    simp

end XrBindings
