import XrBindings.Bindings.ResultCheck
import XrBindings.Proofs.Bindings.Growth
import XrBindings.Proofs.Distinct
import XrBindings.Proofs.Zig.Switch

/-!
# The switch of a check

The check of an enum is written from three things that are computed apart: the split of the enum,
which goes by names and includes aliases, its fields, of which there is one for each integer, and
the names of its errors, which may be the same for several values. The switch agrees with all of
them. It has one arm for every integer, and the arm of a field says on which side of the split the
field is.
-/

namespace XrBindings

open XrBindings.Naming XrBindings.Zig

variable {d : Document} {c : Context} {r : Renderer} {decl : EnumDecl} {m m' : EnumMembers}
  {p : ResultPartition} {lines es : List String} {v : EnumValue} {k : Int}

/-! ## The field of an integer -/

def EnumDecl.firstWith? (decl : EnumDecl) (k : Int) : Option EnumValue :=
  decl.values.find? fun v ↦ v.integer? = .ok (some k)

namespace EnumMembers

def fieldOf? (m : EnumMembers) (k : Int) : Option EnumField := m.fields.find? (·.value == k)

theorem fieldOf?_addValue {enumName : String} (h : addValue r enumName m v = .ok m') (k : Int) :
    (m'.fieldOf? k).map (fun f ↦ some f.source) = ((m.fieldOf? k).map fun f ↦ some f.source).or
      (if integer v = .ok k then some v.name else none) := by
  obtain ⟨source, _, _, value, hname, -, hvalue, ⟨f, hf, rfl⟩ | ⟨-, rfl⟩⟩ := addValue_cases h
  · rw [hvalue]
    by_cases hk : value = k
    · -- The integer has a field already.
      subst hk
      simp [fieldOf?, hf]
    · simp [fieldOf?, hk]
  · rw [hvalue, fieldOf?, List.find?_append, Option.map_or, ← fieldOf?]
    by_cases hk : value = k <;> simp [hk, hname]

/-- **The field of an integer is that of the first value with it.** -/
theorem fieldOf?_ofDecl (h : ofDecl r decl = .ok m) (k : Int) :
    (m.fieldOf? k).map (fun f ↦ some f.source) = (decl.firstWith? k).map (·.name) := by
  obtain ⟨m₁, hvalues, h⟩ := Result.bind_eq_ok_iff.mp h
  obtain rfl := Result.pure_eq_ok_iff.mp h
  have hfields : (m₁.fieldOf? k).map (fun f ↦ some f.source) =
      ((decl.values.filter fun v ↦ !v.isAlias).find? fun v ↦ integer v = .ok k).map (·.name) := by
    refine Result.foldlM_prefix_induction (fun before m ↦
      (m.fieldOf? k).map (fun f ↦ some f.source) =
        (before.find? fun v ↦ integer v = .ok k).map (·.name)) hvalues rfl ?_
    intro before v m m' hbefore hstep
    rw [fieldOf?_addValue hstep, hbefore, List.find?_append, Option.map_or]
    by_cases hv : integer v = .ok k <;> simp [hv]
  have hproper : ∀ v : EnumValue, v.isAlias = false ∧ integer v = .ok k ↔
      v.integer? = .ok (some k) := by
    intro v
    constructor
    · exact fun hv ↦ integer_eq_ok hv.1 hv.2
    · intro hv
      exact ⟨EnumValue.isAlias_eq_false_of_integer? hv, Result.bind_eq_ok_iff.mpr ⟨_, hv, rfl⟩⟩
  rw [fieldOf?, fields_foldl_addAlias, ← fieldOf?, hfields, List.find?_filter, EnumDecl.firstWith?]
  simp only [Bool.not_eq_true', decide_eq_true_eq, hproper]

/-- The tags of an enum, each with its integer. -/
def tagValues (m : EnumMembers) : List (String × Int) := m.fields.map fun f ↦ (f.name, f.value)

theorem map_fst_tagValues (m : EnumMembers) : m.tagValues.map (·.1) = m.fields.map (·.name) := by
  simp [tagValues]

theorem map_snd_tagValues (m : EnumMembers) : m.tagValues.map (·.2) = m.fields.map (·.value) := by
  simp [tagValues]

theorem patternFor_tagValues (m : EnumMembers) (k : Int) :
    patternFor m.tagValues k = ((m.fieldOf? k).map fun f ↦ .tag f.name).getD .unnamed := by
  rw [patternFor, tagValues, List.find?_map, fieldOf?, Function.comp_def]
  cases m.fields.find? (·.value == k) with
  | none => rfl
  | some f => rfl

end EnumMembers

/-! ## The set of errors -/

theorem isName_of_errorName {n e : String} (h : r.errorName n = .ok e) : IsName e := by
  unfold Renderer.errorName at h
  obtain ⟨text, -, rfl⟩ := Result.map_eq_ok_iff.mp h
  exact isName_writeIdentifier text

namespace Context

/-- The errors of an enum are those of its values that report a failure, and the unknown one. -/
theorem of_errorNames (h : c.errorNames p = .ok es) : es.Nodup ∧ "Unknown" ∈ es ∧
    (∀ n, some n ∈ p.error → ∃ e ∈ es, c.renderer.errorName n = .ok e) ∧
    ∀ e ∈ es, e.toList.head? ≠ some ' ' := by
  obtain ⟨names, hnames, h⟩ := Result.bind_eq_ok_iff.mp h
  obtain ⟨hnodup, hmem⟩ : es.Nodup ∧ ∀ e, e ∈ es ↔ e ∈ names ∨ e = "Unknown" := by
    rw [← Result.pure_eq_ok_iff.mp h]
    split
    · next hunknown =>
      refine ⟨nodup_eraseDups names, fun e ↦ ?_⟩
      rw [List.contains_iff_mem, List.mem_eraseDups] at hunknown
      rw [List.mem_eraseDups]
      exact ⟨Or.inl, fun he ↦ he.elim id fun he ↦ he ▸ hunknown⟩
    · next hunknown =>
      rw [List.contains_iff_mem] at hunknown
      refine ⟨(List.perm_append_singleton _ _).nodup_iff.mpr
        (List.nodup_cons.mpr ⟨hunknown, nodup_eraseDups names⟩), fun e ↦ ?_⟩
      rw [List.mem_append, List.mem_eraseDups, List.mem_singleton]
  refine ⟨hnodup, (hmem _).mpr (Or.inr rfl), ?_, ?_⟩
  · intro n hn
    obtain ⟨e, he, hname⟩ := Result.exists_of_mapM hnames hn
    obtain ⟨n', hn', hname⟩ := Result.bind_eq_ok_iff.mp hname
    obtain rfl := Except.ok.inj hn'
    exact ⟨e, (hmem e).mpr (Or.inl he), hname⟩
  · intro e he
    rcases (hmem e).mp he with he | rfl
    · obtain ⟨value, -, hvalue⟩ := (Result.mem_of_mapM hnames).mp he
      obtain ⟨n, -, hvalue⟩ := Result.bind_eq_ok_iff.mp hvalue
      exact (isName_of_errorName hvalue).head?_ne
    · decide

/-! ## The lines of a check -/

/-- The lines of a check before its arms. -/
def checkStart (errorSet check enumType : String) (es : List String) : List String :=
  ["pub const " ++ errorSet ++ " = error\x7b"]
    ++ (es.map fun e ↦ "    " ++ e ++ ",")
    ++ ["\x7d;", "",
      "pub fn " ++ check ++ "(result: " ++ enumType ++ ") " ++ errorSet ++ "!void \x7b",
      "    switch (result) \x7b"]

section

variable (errorSet check enumType : String) (hstart : ∀ e ∈ es, e.toList.head? ≠ some ' ')

include hstart

theorem listedErrors_check {body : List String} (hbody : ∀ line ∈ body, listedError? line = none) :
    listedErrors (checkStart errorSet check enumType es ++ body) = es := by
  have hset : listedErrors ["pub const " ++ errorSet ++ " = error\x7b"] = [] :=
    listedErrors_of_none (List.forall_mem_singleton.mpr
      (listedError?_eq_none (n := 0) (by decide) (by simp)))
  have hlisted : listedErrors (es.map fun e ↦ "    " ++ e ++ ",") = es := by
    rw [listedErrors, List.filterMap_map]
    exact (List.filterMap_congr fun e he ↦ listedError?_eq (hstart e he)).trans List.filterMap_some
  have hcheck : listedErrors ["\x7d;", "", "pub fn " ++ check ++ "(result: " ++ enumType ++ ") " ++
      errorSet ++ "!void \x7b", "    switch (result) \x7b"] = [] := by
    refine listedErrors_of_none ?_
    simp only [List.forall_mem_cons]
    exact ⟨by decide, by decide, listedError?_eq_none (n := 0) (by decide) (by simp), by decide,
      List.forall_mem_nil _⟩
  simp only [checkStart, listedErrors_append, hset, hlisted, hcheck, listedErrors_of_none hbody,
    List.nil_append, List.append_nil]

theorem readArms_check (body : List String) :
    readArms [] (checkStart errorSet check enumType es ++ body) = readArms [] body := by
  refine readArms_of_none ?_
  simp only [checkStart, List.forall_mem_append, List.forall_mem_cons, List.forall_mem_map]
  refine ⟨⟨⟨?_, List.forall_mem_nil _⟩, fun e he ↦ ?_⟩, by decide, by decide, ?_, by decide,
    List.forall_mem_nil _⟩
  · exact armLine?_eq_none (n := 0) (by decide) (by simp)
  · -- Behind the spaces stands an error, or the comma if its name is empty.
    refine armLine?_eq_none (n := 4) (by decide) ?_
    have hchar : ("    " ++ e ++ ",").toList[4]? = (e.toList ++ [',']).head? := by
      simp [List.head?_eq_getElem?]
    rw [hchar, List.head?_append]
    cases hchars : e.toList.head? with
    | none => simp
    | some c => simpa [hchars] using hstart e he
  · exact armLine?_eq_none (n := 0) (by decide) (by simp)

end

/-- The lines of the arm of success, which is left out if it would be for no field. -/
def successLines (fields : List EnumField) : List String :=
  if fields.isEmpty then []
  else (fields.map fun f ↦ "        ." ++ f.name ++ ",") ++ ["        => \x7b\x7d,"]

def successArm (fields : List EnumField) : List Arm :=
  if fields.isEmpty then [] else [⟨fields.map fun f ↦ .tag f.name, none⟩]

theorem readArms_successLines {fields : List EnumField} (hnames : ∀ f ∈ fields, IsName f.name)
    (lines : List String) :
    readArms [] (successLines fields ++ lines) = successArm fields ++ readArms [] lines := by
  rw [successLines, successArm]
  split
  · rfl
  · have htags : (fields.map fun f ↦ "        ." ++ f.name ++ ",") =
        (fields.map (·.name)).map fun n ↦ "        ." ++ n ++ "," := by simp
    rw [htags, List.append_assoc, readArms_tags (by simpa using hnames), List.singleton_append,
      readArms_cons armLine?_success]
    simp

theorem listedError?_successLines (fields : List EnumField) :
    ∀ line ∈ successLines fields, listedError? line = none := by
  rw [successLines]
  split
  · exact List.forall_mem_nil _
  · rw [List.forall_mem_append, List.forall_mem_map]
    refine ⟨fun f _ ↦ ?_, by decide⟩
    exact listedError?_of_deeper ⟨_, by rw [String.append_assoc, String.toList_append]; rfl⟩

/-- The arm for the integers that no field has. -/
def unknownArm : Arm := ⟨[.unnamed], some "Unknown"⟩

/-- An arm that reports the error of a field. -/
def ReportsError (c : Context) (f : EnumField) (a : Arm) : Prop :=
  ∃ e, c.renderer.errorName f.source = .ok e ∧ a = ⟨[.tag f.name], some e⟩

/-- The arms of errors, one for each field. -/
theorem exists_readArms_errorArm {fields : List EnumField} {errorLines : List String}
    (hnames : ∀ f ∈ fields, IsName f.name) (h : fields.mapM c.errorArm = .ok errorLines)
    (lines : List String) : ∃ as, List.Forall₂ c.ReportsError fields as ∧
      readArms [] (errorLines ++ lines) = as ++ readArms [] lines := by
  have hall := Result.mapM_eq_ok_iff.mp h
  clear h
  induction hall with
  | nil => exact ⟨[], .nil, rfl⟩
  | @cons f line fields errorLines harm _ ih =>
    rw [List.forall_mem_cons] at hnames
    obtain ⟨e, he, hline⟩ := Result.bind_eq_ok_iff.mp harm
    obtain rfl := Result.pure_eq_ok_iff.mp hline
    obtain ⟨as, has, hread⟩ := ih hnames.2
    refine ⟨⟨[.tag f.name], some e⟩ :: as, .cons ⟨e, he, rfl⟩ has, ?_⟩
    rw [List.cons_append, readArms_cons (armLine?_error hnames.1 e), hread]
    rfl

theorem listedError?_errorArm {f : EnumField} {line : String} (h : c.errorArm f = .ok line) :
    listedError? line = none := by
  obtain ⟨e, -, hline⟩ := Result.bind_eq_ok_iff.mp h
  rw [← Result.pure_eq_ok_iff.mp hline]
  simp only [String.append_assoc]
  exact listedError?_of_deeper ⟨_, by rw [String.toList_append]; rfl⟩

/-- **What a check says when it is read**: the errors, the arm of success, an arm for each field
that reports an error, and the arm for all other integers. -/
theorem of_resultCheckSource (h : c.resultCheckSource p = .ok lines) :
    ∃ decl m failures, c.document.enums.get? p.enumName = some decl ∧
      c.enumMembers decl = .ok m ∧ c.errorNames p = .ok (listedErrors lines) ∧
      List.Forall₂ c.ReportsError (m.fields.filter fun f ↦ p.isError (some f.source)) failures ∧
      arms lines = successArm (m.fields.filter fun f ↦ !p.isError (some f.source)) ++
        (failures ++ [unknownArm]) := by
  unfold resultCheckSource at h
  obtain ⟨enumType, -, h⟩ := Result.bind_eq_ok_iff.mp h
  dsimp only at h
  split at h
  swap
  · cases h
  next decl hdecl =>
  obtain ⟨_, hpure, h⟩ := Result.bind_eq_ok_iff.mp h
  obtain rfl := Result.pure_eq_ok_iff.mp hpure
  obtain ⟨m, hm, h⟩ := Result.bind_eq_ok_iff.mp h
  obtain ⟨es, hes, h⟩ := Result.bind_eq_ok_iff.mp h
  obtain ⟨errorSet, -, h⟩ := Result.bind_eq_ok_iff.mp h
  obtain ⟨check, -, h⟩ := Result.bind_eq_ok_iff.mp h
  obtain ⟨errorLines, herrorLines, h⟩ := Result.bind_eq_ok_iff.mp h
  have hnames : ∀ f ∈ m.fields, IsName f.name := fun f hf ↦
    (EnumMembers.isValueName_of_mem_used hm (List.mem_append_left _
      (List.mem_map_of_mem hf))).isMemberName.isName
  have hstart := (of_errorNames hes).2.2.2
  set success := m.fields.filter fun f ↦ !p.isError (some f.source)
  have hlines : lines = checkStart errorSet check enumType es ++ (successLines success ++
      (errorLines ++ ["        _ => return error.Unknown,", "    \x7d", "\x7d"])) := by
    rw [← Result.pure_eq_ok_iff.mp h]
    simp only [List.append_assoc, successLines, checkStart]
  obtain ⟨failures, hfailures, hread⟩ := exists_readArms_errorArm
    (fun f hf ↦ hnames f (List.mem_filter.mp hf).1) herrorLines
    ["        _ => return error.Unknown,", "    \x7d", "\x7d"]
  refine ⟨decl, m, failures, hdecl, hm, ?_, hfailures, ?_⟩
  · rw [hlines, listedErrors_check errorSet check enumType hstart, hes]
    simp only [List.forall_mem_append]
    refine ⟨listedError?_successLines success, fun line hline ↦ ?_, by decide⟩
    obtain ⟨f, -, hf⟩ := (Result.mem_of_mapM herrorLines).mp hline
    exact listedError?_errorArm hf
  · rw [arms, hlines, readArms_check errorSet check enumType hstart, readArms_successLines
      (fun f hf ↦ hnames f (List.mem_filter.mp hf).1), hread]
    rfl

/-! ## The arm of a field -/

section

variable {fields : List EnumField} {failures : List Arm} {isError : EnumField → Bool}
  {f : EnumField} {a : Arm}

theorem patterns_successArm (fields : List EnumField) :
    (successArm fields).flatMap (·.patterns) = fields.map fun f ↦ .tag f.name := by
  cases fields with
  | nil => rfl
  | cons f fields => simp [successArm]

theorem patterns_of_reportsError (h : List.Forall₂ c.ReportsError fields failures) :
    failures.flatMap (·.patterns) = fields.map fun f ↦ .tag f.name := by
  induction h with
  | nil => rfl
  | cons hf _ ih =>
    obtain ⟨e, -, rfl⟩ := hf
    rw [List.flatMap_cons, ih]
    rfl

theorem patterns_perm (h : List.Forall₂ c.ReportsError (m.fields.filter isError) failures) :
    ((successArm (m.fields.filter fun f ↦ !isError f) ++ (failures ++ [unknownArm])).flatMap
      (·.patterns)).Perm (enumPatterns m.tagValues) := by
  rw [List.flatMap_append, List.flatMap_append, patterns_successArm, patterns_of_reportsError h,
    ← List.append_assoc, ← List.map_append, enumPatterns, EnumMembers.tagValues, List.map_map]
  refine .append_right _ (.map _ ?_)
  exact List.perm_append_comm.trans (List.filter_append_perm isError m.fields)

theorem of_mem_arms (h : List.Forall₂ c.ReportsError (m.fields.filter isError) failures)
    (ha : a ∈ successArm (m.fields.filter fun f ↦ !isError f) ++ (failures ++ [unknownArm])) :
    a = ⟨(m.fields.filter fun f ↦ !isError f).map fun f ↦ .tag f.name, none⟩ ∨
      (∃ f ∈ m.fields, isError f = true ∧ c.ReportsError f a) ∨ a = unknownArm := by
  rcases List.mem_append.mp ha with ha | ha
  · rw [successArm] at ha
    split at ha
    · exact absurd ha List.not_mem_nil
    · exact Or.inl (List.mem_singleton.mp ha)
  · rcases List.mem_append.mp ha with ha | ha
    · obtain ⟨f, hf, hreports⟩ := Result.exists_mem_of_forall₂ h.flip ha
      obtain ⟨hf, herror⟩ := List.mem_filter.mp hf
      exact Or.inr (Or.inl ⟨f, hf, herror, hreports⟩)
    · exact Or.inr (Or.inr (List.mem_singleton.mp ha))

theorem of_tag_mem (hnames : (m.fields.map (·.name)).Nodup)
    (h : List.Forall₂ c.ReportsError (m.fields.filter isError) failures) (hf : f ∈ m.fields)
    (ha : a ∈ successArm (m.fields.filter fun f ↦ !isError f) ++ (failures ++ [unknownArm]))
    (htag : .tag f.name ∈ a.patterns) :
    isError f = false ∧ a.error? = none ∨ isError f = true ∧ c.ReportsError f a := by
  have hsame : ∀ g ∈ m.fields, g.name = f.name → g = f := fun g hg ↦
    List.inj_on_of_nodup_map hnames hg hf
  obtain rfl | ⟨g, hg, herror, e, he, rfl⟩ | rfl := of_mem_arms h ha
  · obtain ⟨g, hg, hname⟩ := List.mem_map.mp htag
    obtain ⟨hg, hsuccess⟩ := List.mem_filter.mp hg
    obtain rfl := hsame g hg (Pattern.tag.inj hname)
    exact Or.inl ⟨by simpa using hsuccess, rfl⟩
  · obtain rfl := hsame g hg (Pattern.tag.inj (List.mem_singleton.mp htag)).symm
    exact Or.inr ⟨herror, e, he, rfl⟩
  · exact absurd (List.mem_singleton.mp htag) (by simp)

/-- What an arm returns is the error of a field, or the unknown one. -/
theorem exists_of_error?_eq_some {e : String}
    (h : List.Forall₂ c.ReportsError (m.fields.filter isError) failures)
    (ha : a ∈ successArm (m.fields.filter fun f ↦ !isError f) ++ (failures ++ [unknownArm]))
    (he : a.error? = some e) :
    (∃ f ∈ m.fields, isError f = true ∧ c.renderer.errorName f.source = .ok e) ∨
      e = "Unknown" := by
  obtain rfl | ⟨f, hf, herror, e', hname, rfl⟩ | rfl := of_mem_arms h ha
  · exact absurd he (by simp)
  · exact Or.inl ⟨f, hf, herror, Option.some.inj he ▸ hname⟩
  · exact Or.inr (Option.some.inj he).symm

/-- The arm for other integers is the only one with the underscore. -/
theorem eq_unknownArm (h : List.Forall₂ c.ReportsError (m.fields.filter isError) failures)
    (ha : a ∈ successArm (m.fields.filter fun f ↦ !isError f) ++ (failures ++ [unknownArm]))
    (hunnamed : .unnamed ∈ a.patterns) : a = unknownArm := by
  obtain rfl | ⟨f, -, -, e, -, rfl⟩ | rfl := of_mem_arms h ha
  · simp at hunnamed
  · simp at hunnamed
  · rfl

end

end Context

/-- **A check decides every integer.** In the switch that is written for a split, the tags of the
fields and the underscore are in one arm each, and nothing else is. A field is in the arm of success
unless the split has its name of the registry among the errors; then its arm returns the error with
the name that is rendered from it. The errors that are returned are all listed, and none twice. So
one arm applies to an integer: that of the first value with it, or the unknown error if there is no
such value. -/
theorem resultCheck_decides (hd : d.Accepted) (hc : Context.ofDocument d = .ok c)
    (h : c.resultCheckSource p = .ok lines) :
    ∃ decl m, d.enums.get? p.enumName = some decl ∧ c.enumMembers decl = .ok m ∧
      ((arms lines).flatMap (·.patterns)).Nodup ∧
      ((arms lines).flatMap (·.patterns)).Perm (enumPatterns m.tagValues) ∧
      (∀ f ∈ m.fields, ∀ a ∈ arms lines, .tag f.name ∈ a.patterns →
        some f.source ∉ p.error ∧ a.error? = none ∨
        some f.source ∈ p.error ∧ ∃ e, c.renderer.errorName f.source = .ok e ∧
          a.error? = some e) ∧
      ⟨[.unnamed], some "Unknown"⟩ ∈ arms lines ∧
      (listedErrors lines).Nodup ∧ "Unknown" ∈ listedErrors lines ∧
      (∀ a ∈ arms lines, ∀ e, a.error? = some e → e ∈ listedErrors lines) ∧
      ∀ k, ∃ a, (arms lines).filter (·.applies m.tagValues k) = [a] ∧
        (∀ v, decl.firstWith? k = some v → ∃ f ∈ m.fields, v.name = some f.source ∧ f.value = k ∧
          .tag f.name ∈ a.patterns) ∧
        (decl.firstWith? k = none → a = ⟨[.unnamed], some "Unknown"⟩) := by
  obtain ⟨decl, m, failures, hdecl, hm, herrors, hfailures, harms⟩ := Context.of_resultCheckSource h
  obtain ⟨rfl, -, -⟩ := Context.ofDocument_eq_ok hc
  obtain ⟨-, hdistinct⟩ := hd.consistent.enums_named p.enumName decl hdecl
  have hpresents := EnumMembers.presents_ofDecl hdistinct hm
  have hnames : (m.fields.map (·.name)).Nodup := (List.nodup_append.mp hpresents.nodup_used).1
  have hperm := Context.patterns_perm hfailures
  obtain ⟨hnodup, hunknown, hlisted, -⟩ := Context.of_errorNames herrors
  have hiserror : ∀ n, p.isError n = true ↔ n ∈ p.error := fun n ↦ List.contains_iff_mem
  rw [harms]
  refine ⟨decl, m, hdecl, hm, ?_, hperm, fun f hf a ha htag ↦ ?_, ?_, hnodup, hunknown,
    fun a ha e he ↦ ?_, fun k ↦ ?_⟩
  · rw [hperm.nodup_iff, nodup_enumPatterns_iff, m.map_fst_tagValues]
    exact hnames
  · obtain ⟨hside, ha⟩ | ⟨hside, e, he, rfl⟩ :=
      Context.of_tag_mem hnames hfailures hf ha htag
    · rw [← Bool.not_eq_true, hiserror] at hside
      exact Or.inl ⟨hside, ha⟩
    · exact Or.inr ⟨(hiserror _).mp hside, e, he, rfl⟩
  · exact List.mem_append_right _ (List.mem_append_right _ (List.mem_singleton_self _))
  · obtain ⟨f, -, hside, hname⟩ | rfl := Context.exists_of_error?_eq_some hfailures ha he
    · obtain ⟨e', he', hname'⟩ := hlisted f.source ((hiserror _).mp hside)
      exact Except.ok.inj (hname.symm.trans hname') ▸ he'
    · exact hunknown
  · obtain ⟨a, ha, hpattern⟩ := exists_filter_applies_eq hperm
      (m.map_fst_tagValues ▸ hnames) (m.map_snd_tagValues ▸ hpresents.nodup_values) k
    have hfirst := EnumMembers.fieldOf?_ofDecl hm k
    rw [m.patternFor_tagValues] at hpattern
    refine ⟨a, ha, fun v hv ↦ ?_, fun hnone ↦ ?_⟩
    · rw [hv, Option.map_some] at hfirst
      obtain ⟨f, hf, hsource⟩ := Option.map_eq_some_iff.mp hfirst
      rw [hf, Option.map_some, Option.getD_some] at hpattern
      exact ⟨f, List.mem_of_find?_eq_some hf, hsource.symm, by simpa using List.find?_some hf,
        hpattern⟩
    · rw [hnone, Option.map_none, Option.map_eq_none_iff] at hfirst
      rw [hfirst, Option.map_none, Option.getD_none] at hpattern
      exact Context.eq_unknownArm hfailures
        (List.mem_filter.mp (ha ▸ List.mem_singleton_self a)).1 hpattern

/-- The split of the enum of `pollDocument`. -/
def pollSplit : ResultPartition where
  enumName := "XrResult"
  success := [some "XR_SUCCESS"]
  error := [some "XR_ERROR_LOST", some "XR_ERROR_GONE"]

/-- The negative code is the error of its value, and a code that the registry does not have is
unknown. -/
theorem resultCheck_decides_poll :
    pollDocument.Accepted ∧ ∃ c lines m, Context.ofDocument pollDocument = .ok c ∧
      c.partitions.get? "XrResult" = some pollSplit ∧ c.resultCheckSource pollSplit = .ok lines ∧
      c.enumMembers pollResult = .ok m ∧
      (∃ a, (arms lines).filter (·.applies m.tagValues (-1)) = [a] ∧ a.error? = some "Lost") ∧
      (arms lines).filter (·.applies m.tagValues 7) = [⟨[.unnamed], some "Unknown"⟩] := by
  have hrun : (Context.ofDocument pollDocument).map (fun c ↦ (c.partitions.get? "XrResult",
      (c.resultCheckSource pollSplit).isOk, c.renderer.errorName "XR_ERROR_LOST")) =
      .ok (some pollSplit, true, .ok "Lost") := by decide +kernel
  obtain ⟨c, hc, hrun⟩ := Result.map_eq_ok_iff.mp hrun
  simp only [Prod.mk.injEq] at hrun
  obtain ⟨hsplit, hok, hlost⟩ := hrun
  obtain ⟨lines, hlines⟩ := Result.exists_eq_ok_of_isOk hok
  obtain ⟨decl, m, hdecl, hm, -, -, hside, -, -, -, -, hdecides⟩ :=
    resultCheck_decides pollDocument_accepted hc hlines
  obtain rfl : pollResult = decl := Option.some.inj hdecl
  refine ⟨pollDocument_accepted, c, lines, m, hc, hsplit, hlines, hm, ?_, ?_⟩
  · obtain ⟨a, ha, hfirst, -⟩ := hdecides (-1)
    obtain ⟨f, hf, hname, -, htag⟩ := hfirst _ rfl
    have harm := hside f hf a (List.mem_filter.mp (ha ▸ List.mem_singleton_self a)).1 htag
    rw [← Option.some.inj hname] at harm
    obtain ⟨hsuccess, -⟩ | ⟨-, e, he, herror⟩ := harm
    · exact absurd List.mem_cons_self hsuccess
    · obtain rfl := Except.ok.inj (hlost.symm.trans he)
      exact ⟨a, ha, herror⟩
  · obtain ⟨a, ha, -, hnone⟩ := hdecides 7
    rw [ha, hnone rfl]

end XrBindings
