import XrBindings.Proofs.Bindings.LayoutNames
import XrBindings.Proofs.Distinct
import XrBindings.Proofs.Flags.Fields
import XrBindings.Proofs.Registry.Accepted

/-!
# Members of a set of flags

The flags and masks of a set of flags differ, but they are not alone in its declaration. Each bit
without a name is a field as well, and the operations and two constants are members of every set of
flags. Nothing keeps the names of the registry apart from these.
-/

namespace XrBindings

open XrBindings.Naming XrBindings.Zig

namespace FlagLayout

variable {l : FlagLayout} {n : String}

/-! ## Members -/

/-- The flags that are fields: of the flags of one bit the last, and none beyond the storage. -/
def shownFlags (l : FlagLayout) : List String := (List.range l.width.toNat).filterMap l.flagAt?

/-- The fields of bits without a name. -/
def reservedNames (l : FlagLayout) : List String :=
  ((List.range l.width.toNat).filter fun p ↦ (l.flagAt? p).isNone).map fun p ↦ fieldName (p, none)

/-- The constants of every set of flags. -/
def constantNames : List String := ["IntType", "defined_mask"]

/-- The functions of every set of flags. -/
def operationNames : List String :=
  ["toInt", "fromInt", "merge", "intersect", "subtract", "complement", "contains"]

theorem map_fieldName_perm (l : FlagLayout) :
    (l.fields.map fieldName).Perm (l.shownFlags ++ l.reservedNames) := by
  rw [fields, List.map_map, shownFlags, reservedNames]
  induction List.range l.width.toNat with
  | nil => exact .nil
  | cons p positions ih =>
    cases hflag : l.flagAt? p with
    | none =>
      simp only [List.map_cons, List.filterMap_cons, List.filter_cons, Function.comp_apply, hflag,
        Option.isNone_none, if_true]
      exact (ih.cons _).trans List.perm_middle.symm
    | some f =>
      simp only [List.map_cons, List.filterMap_cons, List.filter_cons, Function.comp_apply, hflag,
        Option.isNone_some, List.cons_append]
      exact ih.cons f

theorem mem_shownFlags_iff : n ∈ l.shownFlags ↔ ∃ p < l.width.toNat, l.flagAt? p = some n := by
  simp [shownFlags]

theorem fieldName_none (p : ℕ) : fieldName (p, none) = numbered "_reserved_bit" p := rfl

theorem mem_reservedNames_iff : n ∈ l.reservedNames ↔
    ∃ p < l.width.toNat, l.flagAt? p = none ∧ numbered "_reserved_bit" p = n := by
  simp [reservedNames, fieldName_none, and_assoc]

theorem shownFlags_subset (l : FlagLayout) : l.shownFlags ⊆ l.bits.map (·.1) := by
  intro f hf
  obtain ⟨p, -, hp⟩ := mem_shownFlags_iff.mp hf
  exact List.mem_map_of_mem (mem_of_flagAt? hp)

theorem nodup_shownFlags (hnames : (l.bits.map (·.1)).Nodup) : l.shownFlags.Nodup := by
  rw [shownFlags, nodup_filterMap_iff List.nodup_range]
  intro p _ q _ hne f hp hq
  exact hne (congrArg Prod.snd
    (List.inj_on_of_nodup_map hnames (mem_of_flagAt? hp) (mem_of_flagAt? hq) rfl))

/-- The members that every set of flags with these unnamed bits has do not clash with each other. -/
theorem nodup_ownNames (l : FlagLayout) :
    (l.reservedNames ++ (constantNames ++ operationNames)).Nodup := by
  rw [List.nodup_append']
  refine ⟨?_, by decide, ?_⟩
  · exact (List.nodup_range.filter _).map (numbered_injective "_reserved_bit")
  · intro n hn hown
    obtain ⟨p, -, -, rfl⟩ := mem_reservedNames_iff.mp hn
    have hhead : ∀ n ∈ constantNames ++ operationNames, n.toList.head? ≠ some '_' := by decide
    exact hhead _ hown (by simp [toList_numbered])

/-! ## Members read back -/

theorem isMemberName_reserved (p : ℕ) : IsMemberName (fieldName (p, none)) := by
  have hname : IsMemberName "_reserved_bit" :=
    ⟨isName_of_isPlainWord (by decide), by decide⟩
  exact hname.numbered p

theorem members_functionLines {f signature result expression : String} (hf : f ∈ operationNames)
    (hsignature : ∃ rest, signature = f ++ rest ∧ rest.toList.head? = some '(') :
    members (functionLines signature result expression) = [f] := by
  have hplain : ∀ f ∈ operationNames, isPlainWord f.toList = true ∧
      f.toList.getLast? ≠ some ':' := by decide +kernel
  obtain ⟨rest, rfl, hrest⟩ := hsignature
  have hhead : member? ("    pub fn " ++ (f ++ rest) ++ " " ++ result ++ " \x7b") = some f := by
    simp only [String.append_assoc]
    rw [member?_fn, leadingName_of_endsName (isName_of_isPlainWord (hplain f hf).1) (hplain f hf).2]
    refine Or.inr ?_
    rw [String.toList_append, List.head?_append, hrest]
    rfl
  have hbody : member? ("        return " ++ expression ++ ";") = none :=
    member?_of_deeper ⟨_, by rw [String.append_assoc, String.toList_append]; rfl⟩
  rw [functionLines, members_cons_some hhead, members_cons_none hbody,
    members_cons_none (by decide)]
  rfl

theorem members_unary (f start : String) {name result expression : String}
    (hf : f ∈ operationNames)
    (hstart : ∃ params, start = f ++ params ∧ params.toList.head? = some '(') :
    members (functionLines (start ++ name ++ ")") result expression) = [f] := by
  obtain ⟨params, rfl, hparams⟩ := hstart
  refine members_functionLines hf ⟨params ++ name ++ ")", by simp only [String.append_assoc], ?_⟩
  rw [String.append_assoc, String.toList_append, List.head?_append, hparams]
  rfl

theorem members_binary (f : String) {name result expression : String} (hf : f ∈ operationNames) :
    members (functionLines (f ++ ("(lhs: " ++ name ++ ", rhs: " ++ name ++ ")")) result
      expression) = [f] := by
  refine members_functionLines hf ⟨_, rfl, ?_⟩
  simp only [String.append_assoc]
  rw [String.toList_append]
  rfl

theorem member?_field_of_mem (h : ∀ n ∈ l.used, IsMemberName n) {f : ℕ × Option String}
    (hf : f ∈ l.fields) : member? ("    " ++ fieldName f ++ ": bool = false,") =
      some (fieldName f) := by
  have hname : IsMemberName (fieldName f) := by
    obtain ⟨p, -, rfl⟩ := List.mem_map.mp hf
    cases hflag : l.flagAt? p with
    | none => exact isMemberName_reserved p
    | some flag =>
      exact h flag (List.mem_append_left _ (List.mem_map_of_mem (mem_of_flagAt? hflag)))
  have htype : BeginsType ": bool = false," := ⟨"bool = false,".toList, by decide⟩
  rw [String.append_assoc, member?_field hname htype]

theorem member?_typedConst (hname : IsName n) (rest : String) :
    member? ("    pub const " ++ (n ++ (": " ++ rest))) = some n := by
  rw [member?_const, leadingName_of_beginsType hname]
  exact ⟨_, by rw [String.toList_append]; rfl⟩

theorem member?_intType (rest : String) :
    member? ("    pub const IntType = " ++ rest) = some "IntType" := by
  rw [show "    pub const IntType = " = "    pub const " ++ ("IntType" ++ " = ") by decide,
    String.append_assoc, String.append_assoc, member?_const,
    leadingName_of_endsName (isName_of_isPlainWord (by decide)) (by decide)]
  exact Or.inl (by rw [String.toList_append]; rfl)

/-- **The members of a set of flags** are the fields of its bits, the two constants, the masks and
the operations. -/
theorem members_source (h : ∀ n ∈ l.used, IsMemberName n) :
    members l.source = l.fields.map fieldName ++ constantNames ++ l.masks.map (·.1) ++
      operationNames := by
  have hmask : ∀ m ∈ l.masks, member? ("    pub const " ++ m.1 ++ ": " ++ l.name ++
      " = @bitCast(@as(" ++ l.intType ++ ", " ++ hexText m.2 ++ "));") = some m.1 := by
    intro m hm
    have hname := h m.1 (List.mem_append_right _ (List.mem_map_of_mem hm))
    simp only [String.append_assoc]
    exact member?_typedConst hname.isName _
  have hhead : member? ("pub const " ++ l.name ++ " = packed struct(" ++ l.intType ++ ") \x7b") =
      none := by
    refine member?_of_head?_ne ?_
    simp only [String.append_assoc]
    rw [String.toList_append]
    exact fun hspace ↦ absurd (Option.some.inj hspace) (by decide)
  have hint : member? ("    pub const IntType = " ++ l.intType ++ ";") = some "IntType" := by
    rw [String.append_assoc]
    exact member?_intType _
  have hdefined : member? ("    pub const defined_mask: " ++ l.intType ++ " = " ++
      hexText l.definedMask ++ ";") = some "defined_mask" := by
    have hopening : "    pub const defined_mask: " = "    pub const " ++ ("defined_mask" ++ ": ") :=
      by decide
    rw [hopening]
    simp only [String.append_assoc]
    exact member?_typedConst (isName_of_isPlainWord (by decide)) _
  have hblank : member? "" = none := by decide
  have hend : member? "\x7d;" = none := by decide
  unfold source
  simp only [members_append, members_cons_none hhead, members_map fun f ↦ member?_field_of_mem h,
    members_cons_none hblank, members_cons_some hint, members_cons_some hdefined,
    members_map hmask, members_cons_none hend,
    members_unary "toInt" "toInt(self: " (by decide) ⟨"(self: ", by decide, by decide⟩,
    members_unary "fromInt" "fromInt(bits: " (by decide) ⟨"(bits: ", by decide, by decide⟩,
    members_binary "merge" (by decide), members_binary "intersect" (by decide),
    members_binary "subtract" (by decide),
    members_unary "complement" "complement(self: " (by decide) ⟨"(self: ", by decide, by decide⟩,
    members_binary "contains" (by decide)]
  simp [members, constantNames, operationNames]

/-- The members differ exactly if no flag that is shown and no mask has the name of another
member. -/
theorem nodup_members_iff (hnames : ∀ n ∈ l.used, IsMemberName n) (hused : l.used.Nodup) :
    (members l.source).Nodup ↔ (l.shownFlags ++ l.masks.map (·.1)).Disjoint
      (l.reservedNames ++ (constantNames ++ operationNames)) := by
  have hperm : (members l.source).Perm ((l.shownFlags ++ l.masks.map (·.1)) ++
      (l.reservedNames ++ (constantNames ++ operationNames))) := by
    rw [members_source hnames, List.perm_iff_count]
    intro n
    have hfields := (map_fieldName_perm l).count_eq n
    simp only [List.count_append] at hfields ⊢
    omega
  obtain ⟨hflags, hmasks, hdisjoint⟩ := List.nodup_append'.mp hused
  have hvalues : (l.shownFlags ++ l.masks.map (·.1)).Nodup :=
    List.nodup_append'.mpr ⟨nodup_shownFlags hflags, hmasks,
      fun _ hn ↦ hdisjoint (l.shownFlags_subset hn)⟩
  rw [hperm.nodup_iff, List.nodup_append']
  exact ⟨fun h ↦ h.2.2, fun h ↦ ⟨hvalues, l.nodup_ownNames, h⟩⟩

end FlagLayout

/-! ## Names that clash -/

variable {c : Context} {name : String} {bits : Option String} {width : Int} {l : FlagLayout}

theorem Context.nodup_used_flagLayout (h : c.flagLayout name bits width = .ok l) :
    l.used.Nodup ∧ ∀ n ∈ l.used, IsValueName n := by
  obtain rfl | ⟨decl, h⟩ := flagLayout_cases h
  · exact ⟨List.nodup_nil, List.forall_mem_nil _⟩
  · exact ⟨FlagLayout.nodup_used h, fun n ↦ FlagLayout.isValueName_of_mem_used h⟩

/-- **Which sets of flags have two members of one name.** The members of a set of flags are the
fields of its bits, the two constants, the masks and the operations. They differ unless a flag that
is shown or a mask is called as an operation in small letters, as the mask of the named bits, or as
the field of a bit without a name. -/
theorem flagMembers_nodup_iff (h : c.flagLayout name bits width = .ok l) :
    members l.source = l.fields.map FlagLayout.fieldName ++ ["IntType", "defined_mask"] ++
      l.masks.map (·.1) ++
      ["toInt", "fromInt", "merge", "intersect", "subtract", "complement", "contains"] ∧
    ((members l.source).Nodup ↔ ∀ n ∈ l.shownFlags ++ l.masks.map (·.1),
      n ∉ ["defined_mask", "merge", "intersect", "subtract", "complement", "contains"] ∧
        n ∉ l.reservedNames) := by
  obtain ⟨hused, hnames⟩ := Context.nodup_used_flagLayout h
  have hmembers := fun n hn ↦ (hnames n hn).isMemberName
  refine ⟨FlagLayout.members_source hmembers, ?_⟩
  rw [FlagLayout.nodup_members_iff hmembers hused, List.disjoint_left]
  refine forall₂_congr fun n hn ↦ ?_
  have hn : n ∈ l.used := by
    rcases List.mem_append.mp hn with hn | hn
    · exact List.mem_append_left _ (l.shownFlags_subset hn)
    · exact List.mem_append_right _ hn
  -- No name of a value has capitals.
  have hsmall := (hnames n hn).isCapital_eq_false
  have hcamel : n ∉ ["IntType", "toInt", "fromInt"] := by
    have hcapital : ∀ m ∈ ["IntType", "toInt", "fromInt"], 'I' ∈ m.toList := by decide
    exact fun hmem ↦ absurd (hsmall 'I' (hcapital n hmem)) (by decide)
  simp only [FlagLayout.constantNames, FlagLayout.operationNames, List.mem_append, List.mem_cons,
    List.not_mem_nil, or_false, not_or] at hcamel ⊢
  tauto

/-- An enum of one bit that belongs to no set of flags. -/
def actionRegistry (value : String) : Xml.Element :=
  ⟨"registry", [], "", [
    ⟨"types", [], "", [⟨"type", [("category", "enum"), ("name", "XrAction")], "", [], ""⟩], ""⟩,
    ⟨"enums", [("name", "XrAction"), ("type", "bitmask"), ("bitwidth", "1")], "", [
      ⟨"enum", [("name", value), ("bitpos", "0")], "", [], ""⟩], ""⟩], ""⟩

def actionEnum (value : String) : EnumDecl where
  name := "XrAction"
  kind := "bitmask"
  bitWidth := 1
  values := [{ name := some value, meaning := .bit 0, origin := "core" }]

def actionDocument (value : String) : Document where
  tags := []
  types := Table.ofList [(some "XrAction", .enum "XrAction")]
  enums := Table.ofList [("XrAction", actionEnum value)]
  commands := .empty
  commandAliases := .empty
  apiConstants := .empty
  features := []
  extensions := []
  origins := .empty
  version := "unknown"

def actionContext (value : String) : Context where
  document := actionDocument value
  graph := {
    order := [.enum "XrAction"]
    canonical := Table.ofList [(some "XrAction", some "XrAction")]
    aliases := [] }
  renderer := ⟨[]⟩
  partitions := .empty
  flagOwners := .empty

/-- The layout of `actionEnum`, whose only flag is `flag`. -/
def actionLayout (flag : String) : FlagLayout where
  name := "Action"
  width := 1
  bits := [(flag, 0)]

theorem ofDocument_action (value : String) :
    Context.ofDocument (actionDocument value) = .ok (actionContext value) := by
  with_unfolding_all rfl

/-- The only bit has a name of its own. -/
theorem flagMembers_nodup_iff_press :
    (actionContext "XR_ACTION_PRESS").flagLayout "Action" (some "XrAction") 1 =
      .ok (actionLayout "press") ∧ (members (actionLayout "press").source).Nodup := by
  have hlayout : (actionContext "XR_ACTION_PRESS").flagLayout "Action" (some "XrAction") 1 =
      .ok (actionLayout "press") := by decide +kernel
  exact ⟨hlayout, (flagMembers_nodup_iff hlayout).2.mpr (by decide +kernel)⟩

/-- The only bit is called as an operation. -/
theorem flagMembers_clash_merge :
    (actionDocument "XR_ACTION_MERGE").Accepted ∧
      Context.ofDocument (actionDocument "XR_ACTION_MERGE") =
        .ok (actionContext "XR_ACTION_MERGE") ∧
      (actionContext "XR_ACTION_MERGE").flagLayout "Action" (some "XrAction") 1 =
        .ok (actionLayout "merge") ∧
      ¬(members (actionLayout "merge").source).Nodup := by
  have hlayout : (actionContext "XR_ACTION_MERGE").flagLayout "Action" (some "XrAction") 1 =
      .ok (actionLayout "merge") := by decide +kernel
  obtain ⟨hused, hnames⟩ := Context.nodup_used_flagLayout hlayout
  refine ⟨⟨actionRegistry "XR_ACTION_MERGE", by with_unfolding_all rfl⟩, ofDocument_action _,
    hlayout, ?_⟩
  rw [FlagLayout.nodup_members_iff (fun n hn ↦ (hnames n hn).isMemberName) hused,
    List.disjoint_left]
  exact fun h ↦ h (a := "merge") (by decide) (by decide)

end XrBindings
