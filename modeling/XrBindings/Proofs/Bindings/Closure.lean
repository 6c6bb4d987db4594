import XrBindings.Proofs.Bindings.Scope

/-!
# Types that the bindings refer to

Where the bindings write the name of a type, it is that of a foreign type in Zig or that of a
declaration. References have been checked before, but the check knows more than is declared: a name
of values that no type declares, and a type that Zig has under a name of its own, so that it is not
declared again. A name of the first kind, and another spelling of the second kind, are written like
names of declarations. Whether they refer to anything is then a matter of luck: some other type may
have been declared by the same name.
-/

namespace XrBindings

open XrBindings.Naming XrBindings.Zig XrBindings.Xml

/-- The name stands for the declaration of a foreign type. -/
def Document.EndsAbroad (d : Document) (n : TypeName) : Prop :=
  ∃ decl ∈ d.types.values, decl.isForeign = true ∧ StandsFor d.types n decl.name

/-- Nothing is declared for the name, although it is not that of a foreign type. -/
def Document.LeftOut (d : Document) (n : String) : Prop :=
  isCType n = false ∧ isPlatformType n = false ∧ (d.hasType n = false ∨ d.EndsAbroad (some n))

namespace Context

/-- The text is the name that a type of the order is declared by in one of the sections. -/
def EmitsName (c : Context) (sections : List (List String)) (text : String) : Prop :=
  ∃ decl ∈ c.graph.order, ∃ lines ∈ sections, c.declarationSource decl = .ok lines ∧
    text ∈ (declarations lines).map Prod.fst

/-- The text is the name that a type is declared by for which `n` does not stand. -/
def Borrows (c : Context) (n : TypeName) (text : String) : Prop :=
  ∃ decl ∈ c.declaredTypes, ¬StandsFor c.document.types n decl.name ∧
    c.declaredName decl.name = .ok text

end Context

namespace Context

variable {c : Context} {sections : List (List String)} {n t : TypeName} {name text : String}

theorem exists_foreignText (h : isCType name = true ∨ isPlatformType name = true) :
    ∃ text, c.baseType name = .ok text ∧ IsForeignText text := by
  rw [baseType]
  split
  · next type htype => exact ⟨type, rfl, isForeignText_of_lookup (Or.inl htype)⟩
  · next hnone =>
    have hplatform := h.resolve_left (by simp [isCType, hnone])
    rw [isPlatformType, Option.isSome_iff_exists] at hplatform
    obtain ⟨type, htype⟩ := hplatform
    exact ⟨type, by rw [htype], isForeignText_of_lookup (Or.inr htype)⟩

theorem baseType_eq_declaredName (hforeign : isCType name = false)
    (hplatform : isPlatformType name = false)
    (hknown : c.document.hasType name = true ∨ c.document.enums.contains name = true) :
    c.baseType name = c.declaredName (some name) := by
  rw [isCType, Option.isSome_eq_false_iff, Option.isNone_iff_eq_none] at hforeign
  rw [isPlatformType, Option.isSome_eq_false_iff, Option.isNone_iff_eq_none] at hplatform
  rw [baseType, hforeign, hplatform]
  exact if_pos (by simpa using hknown)

/-! ## Types that are declared -/

theorem emitsName_iff (h : c.sections = .ok sections) :
    c.EmitsName sections text ↔ ∃ decl ∈ c.declaredTypes, c.declaredName decl.name = .ok text := by
  constructor
  · rintro ⟨decl, hdecl, lines, -, hlines, htext⟩
    obtain ⟨-, rfl⟩ | ⟨hforeign, name, value, hname, hdeclares, -⟩ :=
      declarations_declarationSource hlines
    · exact absurd htext (by simp [declarations])
    · rw [hdeclares, List.map_singleton, List.mem_singleton] at htext
      exact ⟨decl, mem_declaredTypes_iff.mpr ⟨hdecl, hforeign⟩, htext ▸ hname⟩
  · rintro ⟨decl, hdecl, hname⟩
    obtain ⟨_, _, _, _, types, _, _, _, _, _, _, _, -, -, -, -, htypes, -, -, -, -, -, rfl⟩ :=
      sections_eq_ok h
    obtain ⟨lines, hlines, hsource⟩ := Result.exists_of_mapM (typeSections_eq_ok htypes).1 hdecl
    obtain ⟨horder, hforeign⟩ := mem_declaredTypes_iff.mp hdecl
    refine ⟨decl, horder, lines, by simp [hlines], hsource, ?_⟩
    obtain ⟨hforeign', -⟩ | ⟨-, name, value, hname', hdeclares, -⟩ :=
      declarations_declarationSource hsource
    · exact absurd (hforeign.symm.trans hforeign') Bool.false_ne_true
    · obtain rfl := Except.ok.inj (hname.symm.trans hname')
      simp [hdeclares]

/-- A name is written like the declaration that it stands for. -/
theorem declaredName_eq_of_standsFor (hgraph : c.document.typeGraph = .ok c.graph)
    (h : StandsFor c.document.types n t) : c.declaredName n = c.declaredName t := by
  have hcanonical := (typeGraph_eq_ok hgraph).1
  have hsame := (get?_canonicalSpellings_eq_iff hcanonical h.mem_keys h.2).mpr ⟨t, h, h.self⟩
  have hkey := (mem_keys_canonicalSpellings_iff hcanonical).mpr h.2
  obtain ⟨spelling, hspelling⟩ := c.graph.canonical.mem_keys_iff.mp hkey
  rw [declaredName, declaredName, hsame, hspelling, Option.getD_some, Option.getD_some]

/-- A name of a type stands for a declared type unless it stands for a foreign one. -/
theorem exists_declaredType_iff (hn : TypesNamed c.document.types)
    (hgraph : c.document.typeGraph = .ok c.graph) (hkey : n ∈ c.document.types.keys) :
    (∃ decl ∈ c.declaredTypes, StandsFor c.document.types n decl.name) ↔
      ¬c.document.EndsAbroad n := by
  obtain ⟨hcanonical, horder, -⟩ := typeGraph_eq_ok hgraph
  have hmem : ∀ decl, decl ∈ c.graph.order ↔
      decl ∈ c.document.types.values ∧ decl.isAlias = false :=
    fun decl ↦ (mem_typeOrder_iff hn horder).trans mem_properDeclarations_iff
  constructor
  · rintro ⟨decl, hdecl, hstands⟩ ⟨other, hother, hforeign, hstands'⟩
    obtain ⟨hdecl, hnative⟩ := mem_declaredTypes_iff.mp hdecl
    obtain rfl := hn.eq_of_name ((hmem decl).mp hdecl).1 hother (hstands.unique hstands')
    exact absurd (hnative.symm.trans hforeign) Bool.false_ne_true
  · intro habroad
    obtain ⟨t, ht⟩ := exists_canonicalSpellings_iff.mp ⟨_, hcanonical⟩ n hkey
    have hstands := aliasTarget_eq_ok_iff.mp ht
    obtain ⟨decl, hdecl⟩ := c.document.types.mem_keys_iff.mp hstands.2
    obtain rfl := hn t decl hdecl
    have hvalue := c.document.types.mem_values_iff.mpr ⟨_, hdecl⟩
    have hnative : decl.isForeign = false := by
      by_contra hforeign
      exact habroad ⟨decl, hvalue, Bool.not_eq_false _ ▸ hforeign, hstands⟩
    refine ⟨decl, mem_declaredTypes_iff.mpr ⟨?_, hnative⟩, hstands⟩
    exact (hmem decl).mpr ⟨hvalue, hstands.isAlias_eq_false hdecl⟩

theorem emitsName_iff_or (n : TypeName) (h : c.sections = .ok sections) :
    c.EmitsName sections text ↔ (∃ decl ∈ c.declaredTypes,
      StandsFor c.document.types n decl.name ∧ c.declaredName decl.name = .ok text) ∨
        c.Borrows n text := by
  rw [emitsName_iff h, Borrows, ← exists_or]
  refine exists_congr fun decl ↦ ?_
  by_cases hstands : StandsFor c.document.types n decl.name <;> simp [hstands]

/-- A name of a type is written like something that is declared exactly if what it stands for is, or
by luck. -/
theorem emitsName_declaredName_iff (hn : TypesNamed c.document.types)
    (hgraph : c.document.typeGraph = .ok c.graph) (h : c.sections = .ok sections)
    (hkey : n ∈ c.document.types.keys) (htext : c.declaredName n = .ok text) :
    c.EmitsName sections text ↔ ¬c.document.EndsAbroad n ∨ c.Borrows n text := by
  rw [emitsName_iff_or n h, ← exists_declaredType_iff hn hgraph hkey]
  refine or_congr_left (exists_congr fun decl ↦ and_congr_right fun _ ↦ and_iff_left_of_imp ?_)
  exact fun hstands ↦ (declaredName_eq_of_standsFor hgraph hstands).symm.trans htext

/-- A name that is known, but not that of a foreign type, refers to something that is declared
unless it is left out, or by luck. -/
theorem exists_emitsName_iff (hn : TypesNamed c.document.types)
    (hgraph : c.document.typeGraph = .ok c.graph) (h : c.sections = .ok sections)
    (hforeign : isCType name = false) (hplatform : isPlatformType name = false) :
    (∃ text, c.declaredName (some name) = .ok text ∧ c.EmitsName sections text) ↔
      ¬c.document.LeftOut name ∨
        ∃ text, c.declaredName (some name) = .ok text ∧ c.Borrows (some name) text := by
  rw [Document.LeftOut, and_iff_right hforeign, and_iff_right hplatform, not_or, Bool.not_eq_false]
  constructor
  · rintro ⟨text, htext, hemits⟩
    obtain ⟨decl, hdecl, hstands, -⟩ | hborrows := (emitsName_iff_or (some name) h).mp hemits
    · have hkey := hstands.mem_keys
      refine Or.inl ⟨(Table.contains_iff _ _).mpr hkey, ?_⟩
      exact (exists_declaredType_iff hn hgraph hkey).mp ⟨decl, hdecl, hstands⟩
    · exact Or.inr ⟨text, htext, hborrows⟩
  · rintro (⟨htype, habroad⟩ | ⟨text, htext, hborrows⟩)
    · obtain ⟨decl, hdecl, hstands⟩ :=
        (exists_declaredType_iff hn hgraph ((Table.contains_iff _ _).mp htype)).mpr habroad
      obtain ⟨_, _, _, _, _, _, _, _, _, _, _, _, -, -, -, -, htypes, -⟩ := sections_eq_ok h
      obtain ⟨text, -, htext⟩ := Result.exists_of_mapM (typeSections_eq_ok htypes).2 hdecl
      exact ⟨text, (declaredName_eq_of_standsFor hgraph hstands).trans htext,
        (emitsName_iff h).mpr ⟨decl, hdecl, htext⟩⟩
    · exact ⟨text, htext, (emitsName_iff_or (some name) h).mpr (Or.inr hborrows)⟩

/-- Every line for another spelling declares it as the spelling that stands for both. -/
theorem exists_alias_of_mem_aliasSource (hgraph : c.document.typeGraph = .ok c.graph)
    {lines : List String} (h : c.aliasSource = .ok lines) {line : String} (hline : line ∈ lines) :
    ∃ spelling target name declared, (spelling, target) ∈ c.graph.aliases ∧
      c.spelledName spelling = .ok name ∧ c.declaredName spelling = .ok declared ∧
      line = constantLine name declared := by
  obtain ⟨parts, hparts, rfl⟩ := aliasSource_eq_ok h
  obtain ⟨part, hpart, hline⟩ := List.mem_flatten.mp hline
  obtain ⟨⟨spelling, target⟩, halias, hpart⟩ := (Result.mem_of_mapM hparts).mp hpart
  obtain ⟨name, declared, hname, hdeclared, rfl⟩ := aliasLines_eq_ok hpart
  refine ⟨spelling, target, name, declared, halias, hname, ?_, ?_⟩
  · rwa [declaredName, ((mem_aliases_iff hgraph).mp halias).1]
  · split at hline
    · exact absurd hline List.not_mem_nil
    · exact List.mem_singleton.mp hline

end Context

open Context

/-- **A name is written that is not declared exactly if it is left out,** unless by luck something
else is declared by the name that is written. This holds wherever a name is used as a type. Other
spellings, too, are declared as something that is declared itself, unless they are spellings of a
foreign type. -/
theorem baseType_declared_iff {d : Document} {c : Context} {sections : List (List String)}
    (hd : d.Accepted) (hc : Context.ofDocument d = .ok c) (h : c.sections = .ok sections) :
    (∀ n, d.Uses n →
      ((∃ text, c.baseType n = .ok text ∧ (IsForeignText text ∨ c.EmitsName sections text)) ↔
        ¬d.LeftOut n ∨ ∃ text, c.baseType n = .ok text ∧ c.Borrows (some n) text)) ∧
    ∃ lines ∈ sections, c.aliasSource = .ok lines ∧ ∀ line ∈ lines,
      ∃ spelling target name declared, (spelling, target) ∈ c.graph.aliases ∧
        c.spelledName spelling = .ok name ∧ c.declaredName spelling = .ok declared ∧
        line = constantLine name declared ∧
        (c.EmitsName sections declared ↔
          ¬d.EndsAbroad spelling ∨ c.Borrows spelling declared) := by
  have hclosed := hd.closed hc
  obtain ⟨rfl, hgraph, -⟩ := ofDocument_eq_ok hc
  have hn := hd.consistent.types_named
  constructor
  · intro n huses
    by_cases hforeign : isCType n = true ∨ isPlatformType n = true
    · obtain ⟨text, htext, htable⟩ := c.exists_foreignText hforeign
      refine iff_of_true ⟨text, htext, Or.inl htable⟩ (Or.inl ?_)
      rintro ⟨hscalar, hplatform, -⟩
      simp [hscalar, hplatform] at hforeign
    · rw [not_or, Bool.not_eq_true, Bool.not_eq_true] at hforeign
      have hknown : c.document.hasType n = true ∨ c.document.enums.contains n = true := by
        simpa [Document.Knows, hforeign.1] using hclosed.knows n huses
      rw [baseType_eq_declaredName hforeign.1 hforeign.2 hknown,
        ← exists_emitsName_iff hn hgraph h hforeign.1 hforeign.2]
      refine exists_congr fun text ↦ and_congr_right fun htext ↦ or_iff_right ?_
      obtain ⟨body, rfl⟩ := c.exists_of_declaredName htext
      exact not_isForeignText_writeIdentifier body
  · obtain ⟨_, _, _, _, _, _, lines, _, _, _, _, _, -, -, -, -, -, haliases, -, -, -, -, rfl⟩ :=
      sections_eq_ok h
    refine ⟨lines, by simp, haliases, fun line hline ↦ ?_⟩
    obtain ⟨spelling, target, name, declared, halias, hname, hdeclared, hline⟩ :=
      exists_alias_of_mem_aliasSource hgraph haliases hline
    have hkey : spelling ∈ c.document.types.keys :=
      (mem_keys_canonicalSpellings_iff (typeGraph_eq_ok hgraph).1).mp
        (c.graph.canonical.mem_keys_iff.mpr ⟨_, ((mem_aliases_iff hgraph).mp halias).1⟩)
    exact ⟨spelling, target, name, declared, halias, hname, hdeclared, hline,
      emitsName_declaredName_iff hn hgraph h hkey hdeclared⟩

/-! ### A struct with members of each kind -/

/-- A struct that holds another struct, a foreign type by another spelling, and an enum that no type
declares. -/
def panelRegistry : Element :=
  ⟨"registry", [], "", [
    ⟨"types", [], "", [
      ⟨"type", [("name", "uint32_t"), ("requires", "stdint")], "", [], ""⟩,
      ⟨"type", [("category", "basetype"), ("name", "XrSize"), ("alias", "uint32_t")], "", [], ""⟩,
      ⟨"type", [("category", "struct"), ("name", "XrArea")], "", [], ""⟩,
      ⟨"type", [("category", "struct"), ("name", "XrPanel")], "", [
        ⟨"member", [], "", [⟨"type", [], "XrArea", [], ""⟩, ⟨"name", [], "area", [], ""⟩], ""⟩,
        ⟨"member", [], "", [⟨"type", [], "XrSize", [], ""⟩, ⟨"name", [], "size", [], ""⟩], ""⟩,
        ⟨"member", [], "", [⟨"type", [], "XrMode", [], ""⟩, ⟨"name", [], "mode", [], ""⟩], ""⟩],
        ""⟩], ""⟩,
    ⟨"enums", [("name", "XrMode")], "", [], ""⟩], ""⟩

def panelFields : List Field :=
  [{ name := "area", typeName := "XrArea" }, { name := "size", typeName := "XrSize" },
    { name := "mode", typeName := "XrMode" }]

def panelDocument : Document where
  tags := []
  types := Table.ofList [
    (some "uint32_t", .external "uint32_t" "stdint"),
    (some "XrSize", .aliasOf (some "XrSize") "uint32_t" "basetype"),
    (some "XrArea", .struct "XrArea" [] [] false),
    (some "XrPanel", .struct "XrPanel" panelFields [] false)]
  enums := Table.ofList [("XrMode", { name := "XrMode", kind := "enum", values := [] })]
  commands := .empty
  commandAliases := .empty
  apiConstants := .empty
  features := []
  extensions := []
  origins := .empty
  version := "unknown"

def panelContext : Context where
  document := panelDocument
  graph := {
    order := [.external "uint32_t" "stdint", .struct "XrArea" [] [] false,
      .struct "XrPanel" panelFields [] false]
    canonical := Table.ofList [
      (some "uint32_t", some "uint32_t"), (some "XrSize", some "uint32_t"),
      (some "XrArea", some "XrArea"), (some "XrPanel", some "XrPanel")]
    aliases := [(some "XrSize", some "uint32_t")] }
  renderer := ⟨[]⟩
  partitions := .empty
  flagOwners := .empty

set_option maxRecDepth 20000 in
theorem panelDocument_accepted : panelDocument.Accepted :=
  ⟨panelRegistry, by with_unfolding_all rfl⟩

theorem ofDocument_panelDocument : Context.ofDocument panelDocument = .ok panelContext := by
  with_unfolding_all rfl

theorem names_panelContext :
    panelContext.sections.isOk = true ∧ panelContext.baseType "XrArea" = .ok "Area" ∧
      (∀ e ∈ [("XrSize", "uint32_t"), ("XrMode", "Mode")],
        panelContext.declaredName (some e.1) = .ok e.2 ∧
          ∀ decl ∈ panelContext.declaredTypes, panelContext.declaredName decl.name ≠ .ok e.2) ∧
      panelContext.aliasSource = .ok ["pub const Size = uint32_t;"] := by decide +kernel

theorem exists_sections_panelContext : ∃ sections, panelContext.sections = .ok sections :=
  Result.exists_eq_ok_of_isOk names_panelContext.1

theorem uses_panelDocument {f : Field} (hf : f ∈ panelFields) : panelDocument.Uses f.typeName := by
  have hdecl : .struct "XrPanel" panelFields [] false ∈ panelDocument.types.values := by decide
  exact .member hdecl hf

/-- The member that is a struct refers to its declaration. -/
theorem baseType_declared_iff_panel :
    panelDocument.Accepted ∧ Context.ofDocument panelDocument = .ok panelContext ∧
      ∃ sections, panelContext.sections = .ok sections ∧
        panelContext.baseType "XrArea" = .ok "Area" ∧
        (IsForeignText "Area" ∨ panelContext.EmitsName sections "Area") := by
  obtain ⟨sections, hsections⟩ := exists_sections_panelContext
  have huses : panelDocument.Uses "XrArea" := uses_panelDocument List.mem_cons_self
  have hget : panelDocument.types.get? (some "XrArea") = some (.struct "XrArea" [] [] false) := by
    decide
  have hself := standsFor_self hget rfl
  have hdeclared : ¬panelDocument.LeftOut "XrArea" := by
    rintro ⟨-, -, htype | ⟨decl, hdecl, hforeign, hstands⟩⟩
    · exact absurd htype (by decide)
    · have hvalues : ∀ decl ∈ panelDocument.types.values, some "XrArea" = decl.name →
          decl.isForeign = false := by decide
      exact absurd ((hvalues decl hdecl (hself.unique hstands)).symm.trans hforeign)
        Bool.false_ne_true
  obtain ⟨text, htext, hemits⟩ := ((baseType_declared_iff panelDocument_accepted
    ofDocument_panelDocument hsections).1 "XrArea" huses).mpr (Or.inl hdeclared)
  have harea := names_panelContext.2.1
  obtain rfl := Except.ok.inj (harea.symm.trans htext)
  exact ⟨panelDocument_accepted, ofDocument_panelDocument, sections, hsections, harea, hemits⟩

/-- The other members refer to nothing, and neither does the other spelling of the foreign type. -/
theorem baseType_undeclared_panel :
    panelDocument.Accepted ∧ Context.ofDocument panelDocument = .ok panelContext ∧
      ∃ sections, panelContext.sections = .ok sections ∧
        (∀ e ∈ [("XrSize", "uint32_t"), ("XrMode", "Mode")], panelDocument.Uses e.1 ∧
          panelContext.baseType e.1 = .ok e.2 ∧ ¬IsForeignText e.2 ∧
          ¬panelContext.EmitsName sections e.2) ∧
        ∃ lines ∈ sections, panelContext.aliasSource = .ok lines ∧
          "pub const Size = uint32_t;" ∈ lines := by
  obtain ⟨sections, hsections⟩ := exists_sections_panelContext
  obtain ⟨-, -, hnames, hlines⟩ := names_panelContext
  refine ⟨panelDocument_accepted, ofDocument_panelDocument, sections, hsections, ?_, ?_⟩
  · have hknown : ∀ e ∈ [("XrSize", "uint32_t"), ("XrMode", "Mode")],
        panelContext.baseType e.1 = panelContext.declaredName (some e.1) := by
      rw [List.forall_mem_cons, List.forall_mem_singleton]
      exact ⟨baseType_eq_declaredName rfl rfl (by decide),
        baseType_eq_declaredName rfl rfl (by decide)⟩
    have huses : ∀ e ∈ [("XrSize", "uint32_t"), ("XrMode", "Mode")], panelDocument.Uses e.1 := by
      rw [List.forall_mem_cons, List.forall_mem_singleton]
      exact ⟨uses_panelDocument (f := { name := "size", typeName := "XrSize" }) (by decide),
        uses_panelDocument (f := { name := "mode", typeName := "XrMode" }) (by decide)⟩
    intro e he
    obtain ⟨hname, hdeclared⟩ := hnames e he
    obtain ⟨body, hbody⟩ := panelContext.exists_of_declaredName hname
    refine ⟨huses e he, (hknown e he).trans hname,
      hbody ▸ not_isForeignText_writeIdentifier body, ?_⟩
    rw [emitsName_iff hsections]
    exact fun ⟨decl, hdecl, hsame⟩ ↦ hdeclared decl hdecl hsame
  · obtain ⟨_, _, _, _, _, _, lines, _, _, _, _, _, -, -, -, -, -, haliases, -, -, -, -, rfl⟩ :=
      sections_eq_ok hsections
    obtain rfl := Except.ok.inj (hlines.symm.trans haliases)
    exact ⟨_, by simp, hlines, List.mem_singleton_self _⟩

end XrBindings
