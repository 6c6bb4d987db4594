import Mathlib.Data.List.Nodup
import XrBindings.Proofs.Registry.EnumDecl
import XrBindings.Registry.Load

/-!
# Accepted documents

What is known of a registry because it was accepted. Types and enums stand under their own names,
no enum has two values of one name, and every alias of a type has a declared target. The first
facts are kept by every step that adds something; the last one is checked at the end.
-/

namespace XrBindings

open XrBindings.Xml XrBindings.Load

/-- A registry that some document tree is read as. -/
def Document.Accepted (d : Document) : Prop := ∃ root : Element, Document.ofElement root = .ok d

theorem Source.accepted {s : Source} {d : Document} (h : s.document = .ok d) : d.Accepted := by
  obtain ⟨root, -, hroot⟩ := Result.bind_eq_ok_iff.mp h
  exact ⟨root, hroot⟩

/-! ## Types -/

/-- Every type stands under its own name. -/
def TypesNamed (types : Table TypeName TypeDecl) : Prop :=
  ∀ name decl, types.get? name = some decl → decl.name = name

namespace TypesNamed

variable {types : Table TypeName TypeDecl} {decl decl' : TypeDecl}

theorem get?_name (h : TypesNamed types) (hdecl : decl ∈ types.values) :
    types.get? decl.name = some decl := by
  obtain ⟨name, hget⟩ := types.mem_values_iff.mp hdecl
  rwa [h name decl hget]

theorem eq_of_name (h : TypesNamed types) (hdecl : decl ∈ types.values)
    (hdecl' : decl' ∈ types.values) (hname : decl.name = decl'.name) : decl = decl' := by
  have hget := h.get?_name hdecl
  rw [hname, h.get?_name hdecl', Option.some.injEq] at hget
  exact hget.symm

theorem mem_keys (h : TypesNamed types) (hdecl : decl ∈ types.values) :
    decl.name ∈ types.keys := types.mem_keys_iff.mpr ⟨decl, h.get?_name hdecl⟩

theorem map_name_values (h : TypesNamed types) : types.values.map (·.name) = types.keys := by
  rw [Table.values, Table.keys, List.map_map]
  exact List.map_congr_left fun e he ↦ h e.1 e.2 (types.get?_eq_some_iff.mpr he)

theorem map_name_filterMap_get? (h : TypesNamed types) {names : List TypeName}
    (hnames : ∀ n ∈ names, n ∈ types.keys) : (names.filterMap types.get?).map (·.name) = names := by
  induction names with
  | nil => rfl
  | cons n names ih =>
    obtain ⟨decl, hget⟩ := types.mem_keys_iff.mp (hnames n List.mem_cons_self)
    have hrest := ih fun n' hn' ↦ hnames n' (List.mem_cons_of_mem n hn')
    rw [List.filterMap_cons, hget, List.map_cons, hrest, h n decl hget]

theorem filterMap_get?_map_name (h : TypesNamed types) {decls : List TypeDecl}
    (hdecls : ∀ decl ∈ decls, decl ∈ types.values) :
    (decls.map (·.name)).filterMap types.get? = decls := by
  induction decls with
  | nil => rfl
  | cons decl decls ih =>
    have hrest := ih fun d hd ↦ hdecls d (List.mem_cons_of_mem decl hd)
    rw [List.map_cons, List.filterMap_cons, h.get?_name (hdecls decl List.mem_cons_self), hrest]

end TypesNamed

theorem typesNamed_types {root : Element} {types : Table TypeName TypeDecl}
    (h : Load.types root = .ok types) : TypesNamed types := by
  refine Result.foldlM_induction TypesNamed h (by simp [TypesNamed, Table.get?, Table.empty]) ?_
  intro table e table' htable hstep
  split at hstep
  · exact Result.pure_eq_ok_iff.mp hstep ▸ htable
  · obtain ⟨decl?, -, hstep⟩ := Result.bind_eq_ok_iff.mp hstep
    cases decl? with
    | none => exact Result.pure_eq_ok_iff.mp hstep ▸ htable
    | some decl =>
      dsimp only at hstep
      split at hstep
      · obtain ⟨_, hreject, -⟩ := Result.bind_eq_ok_iff.mp hstep
        exact absurd hreject Result.reject_ne_ok
      · rw [← Result.pure_eq_ok_iff.mp hstep]
        exact Table.forall_get?_insert htable rfl

/-! ## Enums -/

/-- Every enum stands under its own name, and its values have different names. -/
def EnumsNamed (enums : Table String EnumDecl) : Prop :=
  ∀ name decl, enums.get? name = some decl →
    decl.name = name ∧ (decl.values.map (·.name)).Nodup

/-- A property that an enum has while it has no values, and that adding a value keeps. -/
structure EnumDecl.Kept (P : String → EnumDecl → Prop) : Prop where
  start : ∀ name kind bitWidth, P name { name, kind, values := [], bitWidth }
  add : ∀ name decl value decl', P name decl → decl.addValue value = .ok decl' → P name decl'

namespace EnumDecl.Kept

variable {P : String → EnumDecl → Prop} (hP : EnumDecl.Kept P)

include hP

theorem enumBlock {e : Element} {name : String} {decl : EnumDecl}
    (h : Load.enumBlock e name = .ok decl) : P name decl := by
  obtain ⟨bitWidth, -, h⟩ := Result.bind_eq_ok_iff.mp h
  refine Result.foldlM_induction (P name) h (hP.start name _ bitWidth) ?_
  intro decl v decl' hdecl hstep
  obtain ⟨value, -, hstep⟩ := Result.bind_eq_ok_iff.mp hstep
  exact hP.add name decl value decl' hdecl hstep

theorem enumTables {root : Element} {tables : EnumTables}
    (h : Load.enumTables root = .ok tables) :
    ∀ name decl, tables.enums.get? name = some decl → P name decl := by
  refine Result.foldlM_induction
    (fun tables : EnumTables ↦ ∀ name decl, tables.enums.get? name = some decl → P name decl) h
    (by simp [Table.get?, Table.empty]) ?_
  intro tables e tables' htables hstep
  rw [Load.addBlock] at hstep
  split at hstep
  · obtain ⟨constants, -, hstep⟩ := Result.bind_eq_ok_iff.mp hstep
    rw [← Result.pure_eq_ok_iff.mp hstep]
    exact htables
  · split at hstep
    · exact absurd hstep Result.reject_ne_ok
    · obtain ⟨decl, hdecl, hstep⟩ := Result.bind_eq_ok_iff.mp hstep
      rw [← Result.pure_eq_ok_iff.mp hstep]
      exact Table.forall_get?_insert htables (hP.enumBlock hdecl)

theorem addEmptyEnums (types : Table TypeName TypeDecl) {enums : Table String EnumDecl}
    (h : ∀ name decl, enums.get? name = some decl → P name decl) :
    ∀ name decl, (Load.addEmptyEnums types enums).get? name = some decl → P name decl := by
  rw [Load.addEmptyEnums]
  generalize types.values = decls
  induction decls generalizing enums with
  | nil => exact h
  | cons decl decls ih =>
    rw [List.foldl_cons]
    refine ih ?_
    split
    · rw [Table.insertNew]
      split
      · exact h
      · exact Table.forall_get?_insert h (hP.start _ _ _)
    · exact h

end EnumDecl.Kept

theorem keptNamed : EnumDecl.Kept fun name decl ↦
    decl.name = name ∧ (decl.values.map (·.name)).Nodup where
  start _ _ _ := ⟨rfl, List.nodup_nil⟩
  add := by
    intro name decl value decl' hdecl h
    rcases EnumDecl.addValue_eq_ok_iff.mp h with ⟨-, -, -, rfl⟩ | ⟨hnew, -, rfl⟩
    · exact hdecl
    · refine ⟨hdecl.1, ?_⟩
      rw [List.map_append, List.nodup_append]
      refine ⟨hdecl.2, List.nodup_singleton _, ?_⟩
      intro a ha b hb hab
      rw [List.map_singleton, List.mem_singleton] at hb
      exact hnew (hb ▸ hab ▸ ha)

/-! ### Values that features and extensions add -/

/-- Adding a value to one of the enums keeps a property of all of them. -/
def KeptByValues (M : Table String EnumDecl → Prop) : Prop :=
  ∀ enums block decl value decl', M enums → enums.get? block = some decl →
    decl.addValue value = .ok decl' → M (enums.insert block decl')

section

variable {M : Table String EnumDecl → Prop}

theorem KeptByValues.collect {e : Element} {origin : String} {number? : Option Int}
    {enums : Table String EnumDecl} {c : Collected} (hM : KeptByValues M)
    (h : Load.collect e origin number? enums = .ok c) (henums : M enums) : M c.enums := by
  refine Result.foldlM_induction (fun c : Collected ↦ M c.enums) h henums ?_
  intro c require c' hc hstep
  refine Result.foldlM_induction (fun c : Collected ↦ M c.enums) hstep hc ?_
  intro c v c' hc hstep
  rw [Load.addEnum] at hstep
  split at hstep
  · exact Except.ok.inj hstep ▸ hc
  · split at hstep
    · exact absurd hstep Result.reject_ne_ok
    · next decl hget =>
      obtain ⟨value, -, hstep⟩ := Result.bind_eq_ok_iff.mp hstep
      obtain ⟨decl', hadd, hstep⟩ := Result.bind_eq_ok_iff.mp hstep
      rw [← Result.pure_eq_ok_iff.mp hstep]
      exact hM _ _ decl value decl' hc hget hadd

theorem KeptByValues.features {root : Element} {enums : Table String EnumDecl}
    {result : List Feature × Table String EnumDecl} (hM : KeptByValues M)
    (h : Load.features root enums = .ok result) (henums : M enums) : M result.2 := by
  refine Result.foldlM_induction
    (fun state : List Feature × Table String EnumDecl ↦ M state.2) h henums ?_
  intro state e state' hstate hstep
  rw [Load.addFeature] at hstep
  split at hstep
  · exact Except.ok.inj hstep ▸ hstate
  · obtain ⟨c, hc, hstep⟩ := Result.bind_eq_ok_iff.mp hstep
    rw [← Result.pure_eq_ok_iff.mp hstep]
    exact hM.collect hc hstate

theorem KeptByValues.extensions {root : Element} {enums : Table String EnumDecl}
    {result : List Extension × Table String EnumDecl} (hM : KeptByValues M)
    (h : Load.extensions root enums = .ok result) (henums : M enums) : M result.2 := by
  refine Result.foldlM_induction
    (fun state : List Extension × Table String EnumDecl ↦ M state.2) h henums ?_
  intro state e state' hstate hstep
  rw [Load.addExtension] at hstep
  split at hstep
  · exact Except.ok.inj hstep ▸ hstate
  · split at hstep
    · obtain ⟨number, -, hstep⟩ := Result.bind_eq_ok_iff.mp hstep
      obtain ⟨c, hc, hstep⟩ := Result.bind_eq_ok_iff.mp hstep
      obtain ⟨version, -, hstep⟩ := Result.bind_eq_ok_iff.mp hstep
      rw [← Result.pure_eq_ok_iff.mp hstep]
      exact hM.collect hc hstate
    · exact absurd hstep Result.reject_ne_ok

end

theorem EnumDecl.Kept.keptByValues {P : String → EnumDecl → Prop} (hP : EnumDecl.Kept P) :
    KeptByValues fun enums ↦ ∀ name decl, enums.get? name = some decl → P name decl :=
  fun _ block decl value decl' henums hget hadd ↦
    Table.forall_get?_insert henums (hP.add block decl value decl' (henums block decl hget) hadd)

/-! ## References -/

theorem checkType_of_checkReferences {declarations : Declarations}
    (h : declarations.checkReferences = .ok ()) {decl : TypeDecl}
    (hdecl : decl ∈ declarations.types.values) : declarations.checkType decl = .ok () := by
  obtain ⟨_, htypes, -⟩ := Result.bind_eq_ok_iff.mp h
  exact Result.forM_eq_ok_iff.mp htypes decl hdecl

theorem Declarations.require_eq_ok_iff {holds : Bool} {owner : TypeName} {name : String} :
    Declarations.require holds owner name = .ok () ↔ holds = true := by
  cases holds with
  | true => simp [Declarations.require]
  | false => simp [Declarations.require, reject]

/-- Every alias of a type has a declared target. -/
def AliasesDeclared (types : Table TypeName TypeDecl) : Prop :=
  ∀ decl ∈ types.values, ∀ target, decl.aliasTarget? = some target → some target ∈ types.keys

theorem aliasesDeclared_of_checkReferences {declarations : Declarations}
    (h : declarations.checkReferences = .ok ()) : AliasesDeclared declarations.types := by
  intro decl hdecl target htarget
  have hcheck := checkType_of_checkReferences h hdecl
  cases decl with
  | aliasOf name target' category =>
    obtain rfl := Option.some.inj htarget
    exact (Table.contains_iff _ _).mp (Declarations.require_eq_ok_iff.mp hcheck)
  | _ => exact absurd htarget (by simp [TypeDecl.aliasTarget?])

/-! ## The document -/

/-- The steps by which a document tree is read, each with what it gives. -/
structure Document.ReadFrom (d : Document) (root : Element) (tables : EnumTables)
    (commandTables : CommandTables) (enums : Table String EnumDecl) : Prop where
  types_read : Load.types root = .ok d.types
  tables_read : Load.enumTables root = .ok tables
  commands_read : Load.commandTables root = .ok commandTables
  features_read :
    Load.features root (Load.addEmptyEnums d.types tables.enums) = .ok (d.features, enums)
  extensions_read : Load.extensions root enums = .ok (d.extensions, d.enums)
  commands_eq : d.commands = withOrigins d.origins commandTables.commands
  commandAliases_eq : d.commandAliases = commandTables.aliases
  apiConstants_eq : d.apiConstants = tables.constants
  references_checked : Declarations.checkReferences {
    types := d.types, enums := d.enums, commands := commandTables.commands
    commandAliases := commandTables.aliases, constants := tables.constants } = .ok ()
  bitWidths_checked : Declarations.checkBitWidths {
    types := d.types, enums := d.enums, commands := commandTables.commands
    commandAliases := commandTables.aliases, constants := tables.constants } = .ok ()

theorem Document.readFrom_of_ofElement {root : Element} {d : Document}
    (h : Document.ofElement root = .ok d) :
    ∃ tables commandTables enums, d.ReadFrom root tables commandTables enums := by
  rw [Document.ofElement] at h
  split at h
  · obtain ⟨_, hreject, -⟩ := Result.bind_eq_ok_iff.mp h
    exact absurd hreject Result.reject_ne_ok
  · obtain ⟨types, htypes, h⟩ := Result.bind_eq_ok_iff.mp h
    obtain ⟨tables, htables, h⟩ := Result.bind_eq_ok_iff.mp h
    obtain ⟨commandTables, hcommands, h⟩ := Result.bind_eq_ok_iff.mp h
    obtain ⟨⟨features, enums⟩, hfeatures, h⟩ := Result.bind_eq_ok_iff.mp h
    obtain ⟨⟨extensions, enums'⟩, hextensions, h⟩ := Result.bind_eq_ok_iff.mp h
    obtain ⟨_, hreferences, h⟩ := Result.bind_eq_ok_iff.mp h
    obtain ⟨_, hbitWidths, h⟩ := Result.bind_eq_ok_iff.mp h
    obtain ⟨version, -, h⟩ := Result.bind_eq_ok_iff.mp h
    obtain rfl := Result.pure_eq_ok_iff.mp h
    exact ⟨tables, commandTables, enums, htypes, htables, hcommands, hfeatures, hextensions,
      rfl, rfl, rfl, hreferences, hbitWidths⟩

theorem Document.Accepted.readFrom {d : Document} (h : d.Accepted) :
    ∃ root tables commandTables enums, d.ReadFrom root tables commandTables enums := by
  obtain ⟨root, h⟩ := h
  exact ⟨root, Document.readFrom_of_ofElement h⟩

theorem keys_withOrigins (origins : Table (Option String) String)
    (commands : Table String CommandDecl) :
    (Document.withOrigins origins commands).keys = commands.keys := by
  rw [Document.withOrigins, Table.keys, Table.map, List.map_map]
  rfl

/-- Recording where a command comes from changes nothing else of it. -/
theorem mem_values_withOrigins {origins : Table (Option String) String}
    {commands : Table String CommandDecl} {c : CommandDecl}
    (h : c ∈ (Document.withOrigins origins commands).values) :
    ∃ c' ∈ commands.values, c = { c' with origin := c.origin } := by
  rw [Document.withOrigins, Table.values, Table.map, List.map_map, List.mem_map] at h
  obtain ⟨⟨name, c'⟩, hentry, rfl⟩ := h
  refine ⟨c', List.mem_map_of_mem hentry, ?_⟩
  dsimp only [Function.comp_apply]
  split
  · split <;> rfl
  · rfl

/-- What holds of enums without values, and is kept by adding values, holds of every enum of an
accepted document. -/
theorem Document.Accepted.forall_enums {d : Document} (h : d.Accepted)
    {P : String → EnumDecl → Prop} (hP : EnumDecl.Kept P) :
    ∀ name decl, d.enums.get? name = some decl → P name decl := by
  obtain ⟨root, tables, commandTables, enums, hread⟩ := h.readFrom
  exact hP.keptByValues.extensions hread.extensions_read
    (hP.keptByValues.features hread.features_read
      (hP.addEmptyEnums d.types (hP.enumTables hread.tables_read)))

/-- What every accepted document satisfies. -/
structure Document.Consistent (d : Document) : Prop where
  types_named : TypesNamed d.types
  aliases_declared : AliasesDeclared d.types
  enums_named : EnumsNamed d.enums

/-- **An accepted document is consistent.** -/
theorem Document.Accepted.consistent {d : Document} (h : d.Accepted) : d.Consistent := by
  obtain ⟨root, tables, commandTables, enums, hread⟩ := h.readFrom
  exact {
    types_named := typesNamed_types hread.types_read
    aliases_declared := aliasesDeclared_of_checkReferences hread.references_checked
    enums_named := h.forall_enums keptNamed }

end XrBindings
