import Mathlib.Data.List.Nodup
import XrBindings.Proofs.Command.LengthLink

/-!
# Signatures of commands

A signature is found through a table of links, keyed by the names of the arrays. Here it is given
without the table: where the names of the parameters differ, each parameter is linked to the
identifier that its length begins with, and a count derives from all the arrays that are linked to
its name, in the order of declaration. A count is no pointer, so what derives from arrays is linked
to nothing itself, and the two views of a link never meet in one parameter.
-/

namespace XrBindings

open XrBindings.Text XrBindings.Xml

variable {c : CommandDecl} {p : Field} {q : LoweredParam} {n : String}

namespace CommandDecl

/-! ## Signatures and commands -/

theorem param_lowerParam (links : Table String String) (p : Field) :
    (lowerParam links p).param = p := by
  rw [lowerParam]
  split <;> rfl

theorem of_lower_eq_ok {partitions : Table String ResultPartition} {s : WrapperSignature}
    (h : c.lower partitions = .ok s) : s.command = c ∧ s.params.map (·.param) = c.params := by
  obtain ⟨links, -, h⟩ := Result.bind_eq_ok_iff.mp h
  rw [← Result.pure_eq_ok_iff.mp h, List.map_map]
  exact ⟨rfl, List.map_id'' (param_lowerParam links) c.params⟩

/-! ## The table of links -/

/-- A command has no ambiguous length. -/
def Unambiguous (c : CommandDecl) : Prop := ∀ p ∈ c.params, ¬AmbiguousLength c.params p

/-- The links of the parameters of a list. -/
def linksOf (params : List Field) : List (String × String) :=
  params.filterMap fun p ↦ p.lengthName?.map (p.name, ·)

theorem mem_linksOf_iff {params : List Field} {a n : String} :
    (a, n) ∈ linksOf params ↔ ∃ p ∈ params, p.name = a ∧ p.lengthName? = some n := by
  simp only [linksOf, List.mem_filterMap, Option.map_eq_some_iff, Prod.mk.injEq]
  constructor
  · rintro ⟨p, hp, _, hlength, rfl, rfl⟩
    exact ⟨p, hp, rfl, hlength⟩
  · rintro ⟨p, hp, rfl, hlength⟩
    exact ⟨p, hp, n, hlength, rfl, rfl⟩

/-- A table of links with the link of one more parameter, if it has one. -/
def addLink (links : Table String String) (p : Field) : Table String String :=
  p.lengthName?.elim links (links.insert p.name)

theorem entries_foldl_addLink {params : List Field} {links : Table String String}
    (h : (links.keys ++ params.map (·.name)).Nodup) :
    (params.foldl addLink links).entries = links.entries ++ linksOf params := by
  induction params generalizing links with
  | nil => simp [linksOf]
  | cons p params ih =>
    rw [List.map_cons] at h
    have hp : p.name ∉ links.keys := fun hmem ↦
      (List.nodup_append.mp h).2.2 _ hmem _ List.mem_cons_self rfl
    rw [List.foldl_cons]
    cases hlength : p.lengthName? with
    | none =>
      have hadd : addLink links p = links := by rw [addLink, hlength]; rfl
      rw [hadd, ih (h.sublist ((List.sublist_cons_self _ _).append_left _))]
      simp [linksOf, hlength]
    | some n =>
      have hadd : addLink links p = links.insert p.name n := by rw [addLink, hlength]; rfl
      have hnodup : ((links.insert p.name n).keys ++ params.map (·.name)).Nodup := by
        rw [Table.keys_insert_of_notMem hp]
        simpa using h
      rw [hadd, ih hnodup, Table.entries_insert_of_notMem hp]
      simp [linksOf, hlength]

/-- The table of links is the list of the links, in the order of the parameters. -/
theorem exists_lengthLinks_eq_ok (hd : (c.params.map (·.name)).Nodup) (h : c.Unambiguous) :
    ∃ links, c.lengthLinks = .ok links ∧ links.entries = linksOf c.params := by
  refine ⟨c.params.foldl addLink .empty, ?_, entries_foldl_addLink hd⟩
  rw [lengthLinks]
  refine Result.foldlM_eq_ok fun p hp links ↦ ?_
  rw [lengthLink_eq_ok c.name hd (h p hp), Result.ok_bind, addLink]
  cases p.lengthName? <;> rfl

/-- One ambiguous length makes the links of a command fail. -/
theorem lengthLinks_eq_error (hd : (c.params.map (·.name)).Nodup) (hp : p ∈ c.params)
    (h : AmbiguousLength c.params p) :
    ∃ error, c.lengthLinks = .error (.rejected error) ∧ error.code = .ambiguousLengthLink := by
  have hsteps : ∃ e, c.lengthLinks = .error e ∧
      ∃ error, e = .rejected error ∧ error.code = .ambiguousLengthLink := by
    refine Result.exists_foldlM_eq_error hp (fun links ↦ ?_) (fun p' hp' links e he ↦ ?_) _
    · obtain ⟨error, herror, -⟩ := lengthLink_eq_error c.name hd h
      exact ⟨.rejected error, by rw [herror]; rfl⟩
    · by_cases h' : AmbiguousLength c.params p'
      · obtain ⟨error, herror, hcode⟩ := lengthLink_eq_error c.name hd h'
        rw [herror] at he
        exact ⟨error, (Except.error.inj he).symm, hcode⟩
      · rw [lengthLink_eq_ok c.name hd h'] at he
        obtain he | ⟨length, -, he⟩ := Result.bind_eq_error_iff.mp he
        · exact absurd he (by simp)
        · cases length <;> exact absurd he Result.pure_ne_error
  obtain ⟨_, he, error, rfl, hcode⟩ := hsteps
  exact ⟨error, he, hcode⟩

/-! ## Parameters of a signature -/

/-- The parameters that are linked to a name, in the order of declaration. -/
def arraysWith (c : CommandDecl) (n : String) : List Field :=
  c.params.filter fun p ↦ p.lengthName? == some n

/-- A parameter as its signature sees it, without the table of links. -/
def lowered (c : CommandDecl) (p : Field) : LoweredParam where
  param := p
  direction := Direction.classify p p.lengthName?
  lengthParam := p.lengthName?
  elided := !(c.arraysWith p.name).isEmpty
  lengthOf := (c.arraysWith p.name).map (·.name)

theorem mem_arraysWith_iff : p ∈ c.arraysWith n ↔ p ∈ c.params ∧ p.lengthName? = some n := by
  simp [arraysWith]

/-- The arrays of a name, found among the parameters of a signature. -/
theorem arraysWith_eq_filter (c : CommandDecl) (n : String) :
    c.arraysWith n = ((c.params.map c.lowered).filter (·.lengthParam == some n)).map (·.param) := by
  simp [arraysWith, lowered, List.filter_map, Function.comp_def]

theorem arraysOf_eq {links : Table String String} (h : links.entries = linksOf c.params) :
    arraysOf links n = (c.arraysWith n).map (·.name) := by
  rw [arraysOf, h, arraysWith]
  generalize c.params = params
  induction params with
  | nil => rfl
  | cons p params ih =>
    cases hlength : p.lengthName? with
    | none => simpa [linksOf, hlength] using ih
    | some m =>
      by_cases hm : m = n
      · simpa [linksOf, hlength, hm] using ih
      · simpa [linksOf, hlength, hm] using ih

theorem get?_links {links : Table String String} (hd : (c.params.map (·.name)).Nodup)
    (h : links.entries = linksOf c.params) (hp : p ∈ c.params) :
    links.get? p.name = p.lengthName? := by
  refine Option.ext fun n ↦ ?_
  rw [Table.get?_eq_some_iff, h, mem_linksOf_iff]
  constructor
  · rintro ⟨p', hp', hname, hlength⟩
    rwa [List.inj_on_of_nodup_map hd hp' hp hname] at hlength
  · exact fun hlength ↦ ⟨p, hp, rfl, hlength⟩

/-- What holds the count of an array is linked to nothing itself, because it is no pointer. -/
theorem pointers_eq_nil_of_arraysWith (hd : (c.params.map (·.name)).Nodup) (h : c.Unambiguous)
    (hp : p ∈ c.params) (harrays : c.arraysWith p.name ≠ []) : p.pointers = [] := by
  obtain ⟨array, harray⟩ := List.exists_mem_of_ne_nil _ harrays
  rw [mem_arraysWith_iff] at harray
  obtain ⟨t, ht, hname, hpointers⟩ := holdsCount_of_lengthName? hd (h array harray.1) harray.2
  rwa [List.inj_on_of_nodup_map hd ht hp hname] at hpointers

theorem lowerParam_eq {links : Table String String} (hd : (c.params.map (·.name)).Nodup)
    (h : c.Unambiguous) (hlinks : links.entries = linksOf c.params) (hp : p ∈ c.params) :
    lowerParam links p = c.lowered p := by
  rw [lowerParam, lowered, get?_links hd hlinks hp]
  split
  · next hnil =>
    rw [arraysOf_eq hlinks, List.map_eq_nil_iff] at hnil
    simp [hnil]
  · next hne =>
    have harrays : c.arraysWith p.name ≠ [] := fun hnil ↦
      hne (by rw [arraysOf_eq hlinks, hnil, List.map_nil])
    have hpointers := pointers_eq_nil_of_arraysWith hd h hp harrays
    have hlength : p.lengthName? = none := by simp [Field.lengthName?, hpointers]
    rw [arraysOf_eq hlinks, hlength, Direction.classify, hpointers]
    simp [harrays]

/-- A signature, without the table of links. -/
theorem lower_eq_ok (hd : (c.params.map (·.name)).Nodup) (h : c.Unambiguous)
    (partitions : Table String ResultPartition) :
    c.lower partitions = .ok {
      command := c
      params := c.params.map c.lowered
      partition :=
        if c.returns.pointers.isEmpty then partitions.get? c.returns.typeName else none } := by
  obtain ⟨links, hlinks, hentries⟩ := exists_lengthLinks_eq_ok hd h
  rw [lower, hlinks, ← List.map_congr_left fun p hp ↦ lowerParam_eq hd h hentries hp]
  rfl

theorem unambiguous_of_lower (hd : (c.params.map (·.name)).Nodup)
    {partitions : Table String ResultPartition} {s : WrapperSignature}
    (h : c.lower partitions = .ok s) : c.Unambiguous := by
  intro p hp hambiguous
  obtain ⟨error, herror, -⟩ := lengthLinks_eq_error hd hp hambiguous
  rw [lower, herror] at h
  exact absurd h (by simp [bind, Except.bind])

theorem params_eq_of_lower (hd : (c.params.map (·.name)).Nodup)
    {partitions : Table String ResultPartition} {s : WrapperSignature}
    (h : c.lower partitions = .ok s) : s.params = c.params.map c.lowered := by
  have hlower := lower_eq_ok hd (unambiguous_of_lower hd h) partitions
  rw [h] at hlower
  rw [Except.ok.inj hlower]

end CommandDecl

/-! ## Directions -/

/-- An array is read if its elements are constant, and otherwise read and written. -/
theorem Direction.classify_of_head? {level : PointerLevel} (h : p.pointers.head? = some level) :
    Direction.classify p (some n) = if level.constant then .input else .arrayInOut := by
  obtain ⟨inner, hpointers⟩ := List.head?_eq_some_iff.mp h
  rw [Direction.classify, hpointers]
  simp

/-- A parameter without a link is a result if it points to a single object that may be written, and
that is more than an untyped buffer. -/
theorem Direction.of_classify_eq_output (h : Direction.classify p none = .output) :
    ∃ outer inner, p.pointers = outer :: inner ∧ outer.constant = false ∧ outer.nullable = false ∧
      outer.multiplicity = .single ∧ (inner ≠ [] ∨ p.typeName ≠ "void") := by
  rw [Direction.classify] at h
  split at h
  · exact absurd h (by simp)
  · next outer inner hpointers =>
    refine ⟨outer, inner, hpointers, ?_⟩
    grind

theorem CommandDecl.elided_lowered_iff :
    (c.lowered p).elided = true ↔ ∃ array ∈ c.params, array.lengthName? = some p.name := by
  rw [CommandDecl.lowered, Bool.not_eq_true', List.isEmpty_eq_false_iff_exists_mem]
  simp only [CommandDecl.mem_arraysWith_iff]

theorem CommandDecl.pointers_eq_nil_of_elided (hd : (c.params.map (·.name)).Nodup)
    (h : c.Unambiguous) (hp : p ∈ c.params) (hq : (c.lowered p).elided = true) :
    p.pointers = [] := by
  obtain ⟨array, harray, hlength⟩ := CommandDecl.elided_lowered_iff.mp hq
  exact CommandDecl.pointers_eq_nil_of_arraysWith hd h hp
    (List.ne_nil_of_mem (CommandDecl.mem_arraysWith_iff.mpr ⟨harray, hlength⟩))

/-- A parameter that derives from arrays is read, and one that is linked is no result. -/
theorem CommandDecl.direction_lowered_ne_output (hd : (c.params.map (·.name)).Nodup)
    (h : c.Unambiguous) (hp : p ∈ c.params)
    (hq : (c.lowered p).elided = true ∨ (c.lowered p).lengthParam ≠ none) :
    (c.lowered p).direction ≠ .output := by
  obtain hq | hq := hq
  · have hpointers := CommandDecl.pointers_eq_nil_of_elided hd h hp hq
    simp [CommandDecl.lowered, Direction.classify, hpointers]
  · obtain ⟨n, hn⟩ := Option.ne_none_iff_exists'.mp hq
    have hlength : p.lengthName? = some n := hn
    obtain ⟨level, inner, hpointers⟩ :=
      List.exists_cons_of_ne_nil (Field.lengthName?_eq_some_iff.mp hlength).1
    rw [CommandDecl.lowered, hlength, Direction.classify_of_head? (by rw [hpointers]; rfl)]
    split <;> simp

/-- **Length links.** A command of an accepted document whose parameters have different names is
refused exactly if one of them has an ambiguous length. Otherwise its signature has the parameters
in order. A parameter is linked to an identifier exactly if its outermost level is, and then a plain
count has that name. A parameter derives from arrays exactly if some are linked to it, and it
derives from these in order. Every parameter is derived, visible or a result, and only one of these;
a linked one is visible, and read, or read and written, as its elements are constant or not. -/
theorem lower_follows_lengths {d : Document} (hd : d.Accepted) (hc : c ∈ d.commands.values)
    (hnames : (c.params.map (·.name)).Nodup) (partitions : Table String ResultPartition) :
    ((∃ error, c.lower partitions = .error (.rejected error) ∧
        error.code = .ambiguousLengthLink) ↔ ∃ p ∈ c.params, AmbiguousLength c.params p) ∧
    ((∀ p ∈ c.params, ¬AmbiguousLength c.params p) →
      ∃ s, c.lower partitions = .ok s ∧ s.params.map (·.param) = c.params ∧
        ∀ q ∈ s.params,
          (∀ n, q.lengthParam = some n ↔ (∃ level, q.param.pointers.head? = some level ∧
            level.multiplicity = .lengthLinked ∧ level.length = some n) ∧ IsIdentifier n) ∧
          (∀ n, q.lengthParam = some n → ∃ t ∈ c.params, t.name = n ∧ t.pointers = []) ∧
          (q.elided = true ↔ ∃ r ∈ s.params, r.lengthParam = some q.param.name) ∧
          q.lengthOf =
            (s.params.filter fun r ↦ r.lengthParam == some q.param.name).map (·.param.name) ∧
          (q.elided = true ∧ q ∉ s.visibleParams ∧ q ∉ s.outputs ∨
            q.elided = false ∧ q ∈ s.visibleParams ∧ q ∉ s.outputs ∨
            q.elided = false ∧ q ∉ s.visibleParams ∧ q ∈ s.outputs) ∧
          (q.lengthParam ≠ none → q.elided = false ∧ q ∉ s.outputs ∧
            ∃ level, q.param.pointers.head? = some level ∧
              q.direction = if level.constant then .input else .arrayInOut)) := by
  refine ⟨⟨?_, ?_⟩, fun h ↦ ?_⟩
  · rintro ⟨error, herror, -⟩
    by_contra hnone
    have h : c.Unambiguous := fun p hp hambiguous ↦ hnone ⟨p, hp, hambiguous⟩
    rw [CommandDecl.lower_eq_ok hnames h] at herror
    exact absurd herror (by simp)
  · rintro ⟨p, hp, hambiguous⟩
    obtain ⟨error, herror, hcode⟩ := CommandDecl.lengthLinks_eq_error hnames hp hambiguous
    exact ⟨error, by rw [CommandDecl.lower, herror]; rfl, hcode⟩
  · refine ⟨_, CommandDecl.lower_eq_ok hnames h partitions, ?_, ?_⟩
    · simp [CommandDecl.lowered, Function.comp_def]
    · rw [List.forall_mem_map]
      intro p hp
      have hdeclared := hd.declared_of_mem_params hc hp
      have hside := CommandDecl.direction_lowered_ne_output hnames h hp
      refine ⟨fun n ↦ hdeclared.lengthName?_eq_some_iff, fun n hn ↦
        holdsCount_of_lengthName? hnames (h p hp) hn, ?_, ?_, ?_, fun hlength ↦ ?_⟩
      · rw [CommandDecl.elided_lowered_iff]
        simp [CommandDecl.lowered]
      · simp [CommandDecl.lowered, CommandDecl.arraysWith, List.filter_map, Function.comp_def]
      · have hmem : c.lowered p ∈ c.params.map c.lowered := List.mem_map_of_mem hp
        simp only [WrapperSignature.visibleParams, WrapperSignature.outputs, List.mem_filter, hmem,
          true_and, beq_iff_eq, Bool.and_eq_true, Bool.not_eq_true', bne_iff_ne]
        by_cases helided : (c.lowered p).elided = true
        · simp [helided, hside (Or.inl helided)]
        · by_cases houtput : (c.lowered p).direction = .output <;> simp [helided, houtput]
      · obtain ⟨n, hn⟩ := Option.ne_none_iff_exists'.mp hlength
        have hn : p.lengthName? = some n := hn
        obtain ⟨level, inner, hpointers⟩ :=
          List.exists_cons_of_ne_nil (Field.lengthName?_eq_some_iff.mp hn).1
        have hhead : p.pointers.head? = some level := by rw [hpointers]; rfl
        refine ⟨?_, fun houtput ↦ ?_, level, hhead, ?_⟩
        · by_contra helided
          have hnil := CommandDecl.pointers_eq_nil_of_elided hnames h hp (by simpa using helided)
          exact absurd hpointers (by simp [hnil])
        · exact hside (Or.inr hlength) (by simpa using (List.mem_filter.mp houtput).2)
        · rw [CommandDecl.lowered, hn, Direction.classify_of_head? hhead]

/-- A command that fills one array from another; both have their length in one parameter, which is
declared between them. -/
def fillRegistry : Element :=
  ⟨"registry", [], "", [
    ⟨"commands", [], "", [
      ⟨"command", [], "", [
        ⟨"proto", [], "", [⟨"type", [], "void", [], ""⟩, ⟨"name", [], "xrFill", [], ""⟩], ""⟩,
        ⟨"param", [("len", "count")], "const ", [
          ⟨"type", [], "float", [], "* "⟩, ⟨"name", [], "source", [], ""⟩], ""⟩,
        ⟨"param", [], "", [
          ⟨"type", [], "uint32_t", [], " "⟩, ⟨"name", [], "count", [], ""⟩], ""⟩,
        ⟨"param", [("len", "count")], "", [
          ⟨"type", [], "float", [], "* "⟩, ⟨"name", [], "target", [], ""⟩], ""⟩], ""⟩], ""⟩], ""⟩

def fillCommand : CommandDecl where
  name := "xrFill"
  returns := { name := "", typeName := "void" }
  params := [
    { name := "source", typeName := "float", isConst := true, length := some "count"
      pointers := [{ nullable := false, constant := true, multiplicity := .lengthLinked
                     length := some "count" }] },
    { name := "count", typeName := "uint32_t" },
    { name := "target", typeName := "float", length := some "count"
      pointers := [{ nullable := false, constant := false, multiplicity := .lengthLinked
                     length := some "count" }] }]

def fillDocument : Document where
  tags := []
  types := .empty
  enums := .empty
  commands := Table.ofList [("xrFill", fillCommand)]
  commandAliases := .empty
  apiConstants := .empty
  features := []
  extensions := []
  origins := .empty
  version := "unknown"

theorem unambiguous_fillCommand : fillCommand.Unambiguous := by
  have hlengths : ∀ p ∈ fillCommand.params, ¬(p.pointers ≠ [] ∧
      p.pointers.length < (Declarator.listAttribute p.length).length) ∧
        (p.lengthName? = none ∨ p.lengthName? = some "count") := by decide
  have hcount : HoldsCount fillCommand.params "count" :=
    ⟨_, List.mem_cons_of_mem _ List.mem_cons_self, rfl, rfl⟩
  intro p hp
  rw [ambiguousLength_iff (by decide)]
  rintro (hmany | ⟨n, hn, hnone⟩)
  · exact (hlengths p hp).1 hmany
  · obtain hp | hp := (hlengths p hp).2
    · exact absurd hn (by simp [hp])
    · exact hnone (Option.some.inj (hp.symm.trans hn) ▸ hcount)

set_option maxRecDepth 10000 in
/-- The count derives from the arrays, although it stands between them. -/
theorem lower_follows_lengths_fill :
    fillDocument.Accepted ∧ fillCommand ∈ fillDocument.commands.values ∧
      (fillCommand.params.map (·.name)).Nodup ∧
      ∃ s, fillCommand.lower .empty = .ok s ∧
        ∀ q ∈ s.params, q.param.name = "count" → q.elided = true := by
  have haccepted : fillDocument.Accepted := ⟨fillRegistry, by with_unfolding_all rfl⟩
  have hmem : fillCommand ∈ fillDocument.commands.values := List.mem_singleton_self _
  have hnames : (fillCommand.params.map (·.name)).Nodup := by decide
  refine ⟨haccepted, hmem, hnames, ?_⟩
  obtain ⟨s, hs, hparams, hroles⟩ :=
    (lower_follows_lengths haccepted hmem hnames .empty).2 unambiguous_fillCommand
  refine ⟨s, hs, fun q hq hname ↦ (hroles q hq).2.2.1.mpr ?_⟩
  -- The first of the arrays is a parameter of the signature.
  have hfirst : ∀ p, fillCommand.params.head? = some p → p ∈ s.params.map (·.param) :=
    fun p hp ↦ hparams ▸ List.mem_of_head? hp
  obtain ⟨r, hr, hsource⟩ := List.mem_map.mp (hfirst _ rfl)
  rw [hname]
  refine ⟨r, hr, ((hroles r hr).1 "count").mpr ⟨?_, by decide⟩⟩
  rw [hsource]
  exact ⟨_, rfl, rfl, rfl⟩

end XrBindings
