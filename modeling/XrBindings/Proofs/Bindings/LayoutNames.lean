import XrBindings.Proofs.Bindings.EnumMembers
import XrBindings.Proofs.Naming.SmallLetters
import XrBindings.Proofs.Zig.Member

/-!
# Names in a layout

The values of an enum that are no aliases get their names in turn, whether they become fields and
constants of an enum or flags and masks. What names there are depends on the names of the registry
alone, and they differ. They are identifiers with one exception: a number behind an escaped name
stands outside its quotes.
-/

namespace XrBindings

open XrBindings.Naming XrBindings.Zig

variable {r : Renderer} {decl : EnumDecl} {enumName : String} {isBitmask : Bool}
  {values : List EnumValue} {v : EnumValue}

/-- The short and the long names of the values that are no aliases. -/
def EnumDecl.candidates (decl : EnumDecl) (r : Renderer) (isBitmask : Bool) :
    Result (List (String × String)) :=
  (decl.values.filter fun v ↦ !v.isAlias).mapM fun v ↦
    (EnumMembers.candidates r decl.name v isBitmask).map (·.2)

/-- A name that is written as an identifier, and has no capitals of ASCII. -/
def IsWrittenSmall (n : String) : Prop :=
  ∃ text, n = writeIdentifier text ∧ ∀ c ∈ text.toList, isCapital c = false

theorem isWrittenSmall_enumValueName (r : Renderer) (enumName valueName : String)
    (isBitmask : Bool) : IsWrittenSmall (r.enumValueName enumName valueName isBitmask) :=
  ⟨_, rfl, fun _ hc ↦ Renderer.isCapital_of_mem_enumValueText (String.toList_ofList ▸ hc)⟩

theorem IsWrittenSmall.isIdentifier {n : String} (h : IsWrittenSmall n) : IsIdentifier n := by
  obtain ⟨text, rfl, -⟩ := h
  exact isIdentifier_writeIdentifier text

theorem EnumDecl.isWrittenSmall_of_candidates {cs : List (String × String)}
    (h : decl.candidates r isBitmask = .ok cs) :
    ∀ c ∈ cs, IsWrittenSmall c.1 ∧ IsWrittenSmall c.2 := by
  intro c hc
  obtain ⟨v, -, hv⟩ := (Result.mem_of_mapM h).mp hc
  obtain ⟨⟨source, short, long⟩, hcandidates, rfl⟩ := Result.map_eq_ok_iff.mp hv
  obtain ⟨-, hlong, rfl⟩ := EnumMembers.candidates_eq_ok hcandidates
  obtain ⟨body, hbody, rfl⟩ := Result.map_eq_ok_iff.mp hlong
  exact ⟨isWrittenSmall_enumValueName _ _ _ _, body, rfl,
    fun _ ↦ Renderer.isCapital_of_mem_snake hbody⟩

theorem EnumDecl.isIdentifier_of_candidates {cs : List (String × String)}
    (h : decl.candidates r isBitmask = .ok cs) : ∀ c ∈ cs, IsIdentifier c.1 ∧ IsIdentifier c.2 :=
  fun c hc ↦ (isWrittenSmall_of_candidates h c hc).imp IsWrittenSmall.isIdentifier
    IsWrittenSmall.isIdentifier

/-- The name of a value: one that is written small, or one with a number behind it. -/
def IsValueName (n : String) : Prop :=
  ∃ name, IsWrittenSmall name ∧ (n = name ∨ ∃ i, n = numbered name i)

theorem EnumDecl.isValueName_of_mem_allot {cs : List (String × String)} {n : String}
    (h : decl.candidates r isBitmask = .ok cs) (hn : n ∈ allot cs) : IsValueName n := by
  obtain ⟨c, hc, hname⟩ := exists_of_mem_allot hn
  obtain ⟨hshort, hlong⟩ := isWrittenSmall_of_candidates h c hc
  rcases hname with rfl | rfl | hnumber
  · exact ⟨_, hshort, Or.inl rfl⟩
  · exact ⟨_, hlong, Or.inl rfl⟩
  · exact ⟨_, hlong, Or.inr hnumber⟩

theorem IsValueName.isCapital_eq_false {n : String} (h : IsValueName n) :
    ∀ c ∈ n.toList, isCapital c = false := by
  obtain ⟨_, ⟨text, rfl, htext⟩, hn⟩ := h
  have hname : ∀ c ∈ (writeIdentifier text).toList, isCapital c = false := fun c ↦
    isCapital_of_mem_writeIdentifier htext
  rcases hn with rfl | ⟨i, rfl⟩
  · exact hname
  · exact fun c ↦ isCapital_of_mem_numbered hname

theorem IsValueName.isMemberName {n : String} (h : IsValueName n) : IsMemberName n := by
  obtain ⟨_, ⟨text, rfl, -⟩, rfl | ⟨i, rfl⟩⟩ := h
  · exact .writeIdentifier text
  · exact (IsMemberName.writeIdentifier text).numbered i

/-- Where every step adds the next name to those in use, a run gives out names in turn. -/
theorem exists_used_perm_allot {State : Type} (used : State → List String)
    {step : State → EnumValue → Result State} {start final : State}
    (hstep : ∀ s v s', step s v = .ok s' → ∃ c,
      (EnumMembers.candidates r enumName v isBitmask).map (·.2) = .ok c ∧
        (used s').Perm (used s ++ [uniqueName c.1 c.2 (used s)]))
    (hstart : used start = []) (h : values.foldlM step start = .ok final) :
    ∃ cs, values.mapM (fun v ↦ (EnumMembers.candidates r enumName v isBitmask).map (·.2)) =
      .ok cs ∧ (used final).Perm (allot cs) := by
  refine Result.foldlM_prefix_induction (fun before s ↦ ∃ cs,
    before.mapM (fun v ↦ (EnumMembers.candidates r enumName v isBitmask).map (·.2)) = .ok cs ∧
      (used s).Perm (allot cs)) h ⟨[], rfl, by rw [hstart]; exact .refl _⟩ ?_
  rintro before v s s' ⟨cs, hcs, hperm⟩ hs
  obtain ⟨c, hc, hused⟩ := hstep s v s' hs
  refine ⟨cs ++ [c], ?_, ?_⟩
  · exact Result.mapM_eq_ok_iff.mpr
      (List.rel_append (Result.mapM_eq_ok_iff.mp hcs) (.cons hc .nil))
  · rw [allot_concat, ← uniqueName_perm hperm]
    exact hused.trans (hperm.append_right _)

/-! ## Fields and constants -/

namespace EnumMembers

variable {m m' : EnumMembers}

theorem used_addValue (h : addValue r enumName m v = .ok m') :
    ∃ c, (candidates r enumName v false).map (·.2) = .ok c ∧
      m'.used.Perm (m.used ++ [uniqueName c.1 c.2 m.used]) := by
  obtain ⟨_, short, long, _, -, hcandidates, -, hadded⟩ := addValue_cases h
  refine ⟨(short, long), by rw [hcandidates]; rfl, ?_⟩
  obtain ⟨f, -, rfl⟩ | ⟨-, rfl⟩ := hadded
  · rw [used, used, List.map_append, List.append_assoc]
    exact .refl _
  · rw [used, used, List.map_append, List.append_assoc, List.append_assoc]
    exact .append_left _ List.perm_append_comm

/-- The constant of an alias has a name without a number. -/
theorem used_addAlias (r : Renderer) (decl : EnumDecl) (m : EnumMembers) (v : EnumValue) :
    ∃ names, (addAlias r decl m v).used = m.used ++ names ∧ ∀ n ∈ names, IsWrittenSmall n := by
  rw [addAlias]
  split
  · next source field _ _ =>
    dsimp only
    split
    · exact ⟨[], by simp [used], List.forall_mem_nil _⟩
    · refine ⟨[r.enumValueName decl.name source false], by simp [used], ?_⟩
      exact List.forall_mem_singleton.mpr (isWrittenSmall_enumValueName _ _ _ _)
  · exact ⟨[], by simp, List.forall_mem_nil _⟩

theorem used_foldl_addAlias (r : Renderer) (decl : EnumDecl) (m : EnumMembers)
    (aliases : List EnumValue) : ∃ names, (aliases.foldl (addAlias r decl) m).used =
      m.used ++ names ∧ ∀ n ∈ names, IsWrittenSmall n := by
  induction aliases generalizing m with
  | nil => exact ⟨[], by simp, List.forall_mem_nil _⟩
  | cons v aliases ih =>
    obtain ⟨names, hused, hnames⟩ := used_addAlias r decl m v
    obtain ⟨names', hused', hnames'⟩ := ih (addAlias r decl m v)
    refine ⟨names ++ names', ?_, List.forall_mem_append.mpr ⟨hnames, hnames'⟩⟩
    rw [List.foldl_cons, hused', hused, List.append_assoc]

/-- The names of an enum are those that its values get in turn, and those of aliases. -/
theorem exists_used_perm (h : ofDecl r decl = .ok m) : ∃ cs names,
    decl.candidates r false = .ok cs ∧ m.used.Perm (allot cs ++ names) ∧
      ∀ n ∈ names, IsWrittenSmall n := by
  obtain ⟨m₁, hvalues, h⟩ := Result.bind_eq_ok_iff.mp h
  obtain rfl := Result.pure_eq_ok_iff.mp h
  obtain ⟨cs, hcs, hperm⟩ := exists_used_perm_allot used
    (fun m v m' hstep ↦ used_addValue hstep) rfl hvalues
  obtain ⟨names, hused, hnames⟩ :=
    used_foldl_addAlias r decl m₁ (decl.values.filter (·.isAlias))
  exact ⟨cs, names, hcs, hused ▸ hperm.append_right names, hnames⟩

theorem isValueName_of_mem_used {n : String} (h : ofDecl r decl = .ok m) (hn : n ∈ m.used) :
    IsValueName n := by
  obtain ⟨cs, names, hcs, hperm, hnames⟩ := exists_used_perm h
  rcases List.mem_append.mp (hperm.subset hn) with hn | hn
  · exact EnumDecl.isValueName_of_mem_allot hcs hn
  · exact ⟨n, hnames n hn, Or.inl rfl⟩

end EnumMembers

/-! ## Flags and masks -/

namespace FlagLayout

variable {l l' : FlagLayout} {name : String} {width : Int}

theorem used_addValue (h : addValue r enumName l v = .ok l') :
    ∃ c, (EnumMembers.candidates r enumName v true).map (·.2) = .ok c ∧
      l'.used.Perm (l.used ++ [uniqueName c.1 c.2 l.used]) := by
  obtain ⟨_, short, long, _, hcandidates, -, hadded⟩ := addValue_cases h
  refine ⟨(short, long), by rw [hcandidates]; rfl, ?_⟩
  obtain ⟨p, -, rfl⟩ | ⟨-, -, rfl⟩ := hadded
  · rw [used, used, List.map_append, List.append_assoc, List.append_assoc]
    exact .append_left _ List.perm_append_comm
  · rw [used, used, List.map_append, List.append_assoc]
    exact .refl _

theorem exists_used_perm (h : ofEnum r name width decl = .ok l) :
    ∃ cs, decl.candidates r true = .ok cs ∧ l.used.Perm (allot cs) := by
  obtain ⟨l₁, hvalues, h⟩ := Result.bind_eq_ok_iff.mp h
  obtain rfl := Result.pure_eq_ok_iff.mp h
  obtain ⟨cs, hcs, hperm⟩ := exists_used_perm_allot used
    (fun l v l' hstep ↦ used_addValue hstep) rfl hvalues
  exact ⟨cs, hcs, (((List.mergeSort_perm _ _).map _).append_right _).trans hperm⟩

theorem nodup_used (h : ofEnum r name width decl = .ok l) : l.used.Nodup := by
  obtain ⟨cs, -, hperm⟩ := exists_used_perm h
  exact hperm.nodup_iff.mpr (nodup_allot cs)

theorem isValueName_of_mem_used {n : String} (h : ofEnum r name width decl = .ok l)
    (hn : n ∈ l.used) : IsValueName n := by
  obtain ⟨cs, hcs, hperm⟩ := exists_used_perm h
  exact EnumDecl.isValueName_of_mem_allot hcs (hperm.subset hn)

end FlagLayout

/-- **Names are identifiers** in the layout of an enum and in that of a set of flags, unless an
escaped name needs a number: a value comes when both of its names are in use, and the long one is
escaped. A set of flags has no names at all where that of its enum is empty. -/
theorem layoutNames_isIdentifier_iff (c : Context) :
    (∀ decl m, c.enumMembers decl = .ok m → ∃ cs, decl.candidates c.renderer false = .ok cs ∧
      ((∀ n ∈ m.fields.map (·.name) ++ m.constants.map (·.1), IsIdentifier n) ↔
        ¬NumbersEscaped cs)) ∧
    ∀ block decl, c.document.enums.get? block = some decl → ∀ name width l,
      c.flagLayout name (some block) width = .ok l →
        (block = "" → l.bits.map (·.1) ++ l.masks.map (·.1) = []) ∧
        (block ≠ "" → ∃ cs, decl.candidates c.renderer true = .ok cs ∧
          ((∀ n ∈ l.bits.map (·.1) ++ l.masks.map (·.1), IsIdentifier n) ↔
            ¬NumbersEscaped cs)) := by
  refine ⟨fun decl m hm ↦ ?_, fun block decl hdecl name width l hl ↦ ?_⟩
  · obtain ⟨cs, names, hcs, hperm, hnames⟩ := EnumMembers.exists_used_perm hm
    refine ⟨cs, hcs, ?_⟩
    rw [← forall_isIdentifier_allot_iff (EnumDecl.isIdentifier_of_candidates hcs)]
    have hnames := fun n hn ↦ (hnames n hn).isIdentifier
    -- Aliases spoil nothing, because their names are never numbered.
    calc (∀ n ∈ m.used, IsIdentifier n) ↔ ∀ n ∈ allot cs ++ names, IsIdentifier n :=
          forall_congr' fun n ↦ imp_congr_left hperm.mem_iff
      _ ↔ ∀ n ∈ allot cs, IsIdentifier n := by
          rw [List.forall_mem_append]
          exact and_iff_left hnames
  · rw [Context.flagLayout_of_get? hdecl] at hl
    refine ⟨fun hblock ↦ ?_, fun hblock ↦ ?_⟩
    · rw [if_pos hblock] at hl
      rw [← Except.ok.inj hl]
      rfl
    · rw [if_neg hblock] at hl
      obtain ⟨cs, hcs, hperm⟩ := FlagLayout.exists_used_perm hl
      refine ⟨cs, hcs, ?_⟩
      rw [← forall_isIdentifier_allot_iff (EnumDecl.isIdentifier_of_candidates hcs)]
      exact forall_congr' fun n ↦ imp_congr_left hperm.mem_iff

/-- An enum of numbers from zero on. -/
def stopEnum (names : List String) : EnumDecl where
  name := "XrStop"
  kind := "enum"
  values := names.zipIdx.map fun n ↦
    { name := some n.1, meaning := .number n.2, origin := "core" }

/-- Three values want the name of a keyword, which is escaped. The last one gets a number, but
behind its long name. -/
theorem layoutNames_isIdentifier_iff_stop :
    ∃ decl m, decl = stopEnum ["XR_STOP_ERROR", "XR_STOP_Error", "XR_STOP_error"] ∧
      decl.context.enumMembers decl = .ok m ∧
      m.fields.map (·.name) = ["@\"error\"", "xr_stop_error", "xr_stop_error_2"] ∧
      ∀ n ∈ m.fields.map (·.name) ++ m.constants.map (·.1), IsIdentifier n := by
  set decl := stopEnum ["XR_STOP_ERROR", "XR_STOP_Error", "XR_STOP_error"] with hdecl
  have hcandidates : decl.candidates ⟨[]⟩ false = .ok [("@\"error\"", "xr_stop_error"),
      ("@\"error\"", "xr_stop_error"), ("@\"error\"", "xr_stop_error")] := by decide +kernel
  have hfields : (decl.context.enumMembers decl).map (·.fields.map (·.name)) =
      .ok ["@\"error\"", "xr_stop_error", "xr_stop_error_2"] := by decide +kernel
  obtain ⟨m, hm, hnames⟩ := Result.map_eq_ok_iff.mp hfields
  obtain ⟨cs, hcs, hspec⟩ := (layoutNames_isIdentifier_iff decl.context).1 decl m hm
  obtain rfl := Except.ok.inj (hcandidates.symm.trans hcs)
  exact ⟨decl, m, hdecl, hm, hnames, hspec.mpr (not_numbersEscaped_of_forall (by decide))⟩

/-- An enum whose values have the name of a keyword only. -/
def errorEnum : EnumDecl := stopEnum ["ERROR", "Error"]

/-- The second value gets its number behind the quotes. -/
theorem layoutNames_number_behind_quotes :
    (errorEnum.values.map (·.name)).Nodup ∧ ¬IsIdentifier "@\"error\"_2" ∧
      (∃ m, errorEnum.context.enumMembers errorEnum = .ok m ∧
        "@\"error\"_2" ∈ m.fields.map (·.name)) ∧
      ∃ l, errorEnum.context.flagLayout "Stop" (some "XrStop") 32 = .ok l ∧
        "@\"error\"_2" ∈ l.bits.map (·.1) := by
  have hname : "@\"error\"_2" = numbered (writeIdentifier "error") 2 := by decide +kernel
  refine ⟨by decide, ?_, ?_, ?_⟩
  · rw [hname, isIdentifier_numbered_iff (isIdentifier_writeIdentifier "error")]
    decide +kernel
  · have hfields : (errorEnum.context.enumMembers errorEnum).map (·.fields.map (·.name)) =
        .ok ["@\"error\"", "@\"error\"_2"] := by decide +kernel
    obtain ⟨m, hm, hnames⟩ := Result.map_eq_ok_iff.mp hfields
    exact ⟨m, hm, by simp [hnames]⟩
  · have hflags : (errorEnum.context.flagLayout "Stop" (some "XrStop") 32).map
        (·.bits.map (·.1)) = .ok ["@\"error\"_2"] := by decide +kernel
    obtain ⟨l, hl, hnames⟩ := Result.map_eq_ok_iff.mp hflags
    exact ⟨l, hl, by simp [hnames]⟩

end XrBindings
