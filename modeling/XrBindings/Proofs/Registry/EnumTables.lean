import Mathlib.Data.Set.Basic
import XrBindings.Proofs.Registry.EnumBits

/-!
# Where the values of enums are mentioned

The values of an enum are mentioned in its own block, by features and by extensions. This module
says where a mention stands and what it says, apart from the loaders, and then that the enums of an
accepted document and the mentions in its tree are the same: every mention is found in its enum, and
every value comes from a mention.

## Loading

Three loaders fill the enums, one after another, and each is a nest of loops. `Loads M A B` says of
a part of them that it takes the contents `A` of the enums to the contents `B` and has dealt with
the mentions `M`: nothing is lost, what is new comes from `M`, and all of `M` is represented. Parts
that follow one another load the union of their mentions, so a loop loads what its steps load, and
every loader is described by the mentions that it loads.

A block of another API is read as well. Its values stand beside the others, and nothing is said
about them.
-/

namespace XrBindings

/-- The integer of what a value stands for, if it is no alias. -/
def EnumMeaning.integer : EnumMeaning → Option Int
  | .number value => some value
  | .bit position => some (2 ^ position.toNat)
  | .aliasOf _ => none

/-- The name that is followed, if it is an alias. -/
def EnumMeaning.target? : EnumMeaning → Option String
  | .aliasOf target => some target
  | _ => none

theorem EnumValue.eq_integer_of_integer? {v : EnumValue} {k : Option Int}
    (h : v.integer? = .ok k) : k = v.meaning.integer := by
  rw [integer?] at h
  cases hmeaning : v.meaning with
  | number value =>
    rw [hmeaning] at h
    exact (Except.ok.inj h).symm
  | aliasOf target =>
    rw [hmeaning] at h
    exact (Except.ok.inj h).symm
  | bit position =>
    rw [hmeaning] at h
    dsimp only at h
    split at h
    · exact absurd h (by simp)
    · rw [← Except.ok.inj h, EnumMeaning.integer, Nat.one_shiftLeft]
      norm_cast

theorem EnumValue.aliasTarget?_eq (v : EnumValue) : v.aliasTarget? = v.meaning.target? := by
  rw [aliasTarget?]
  cases v.meaning <;> rfl

namespace Load

open XrBindings.Xml XrBindings.Number

/-! ## Mentions -/

/-- What encloses a mention of a value: the block of its enum, a feature or an extension. -/
inductive Site where
  | block (b : Element)
  | feature (f : Element)
  | extension (x : Element)

/-- An element that mentions a value of an enum. -/
structure Mention where
  enum : String
  element : Element
  site : Site

/-- The mentions in the block of an enum. A mention may be of another API than its block. -/
def blockMentions (b : Element) : Set Mention :=
  {m | (b.get? "name").getD "" ≠ constantsBlock ∧ m.site = .block b ∧
    m.enum = (b.get? "name").getD "" ∧ m.element ∈ b.childrenNamed "enum" ∧
    supportsApi (m.element.get? "api") = true}

/-- The mentions in the `require` blocks of the API, inside a feature or an extension. -/
def requiredMentions (p : Element) (site : Site) : Set Mention :=
  {m | m.site = site ∧ ∃ r ∈ p.childrenNamed "require", supportsApi (r.get? "api") = true ∧
    m.element ∈ r.childrenNamed "enum" ∧ m.element.nonempty? "extends" = some m.enum}

/-- The mentions in a feature, if it is one of the API. -/
def featureMentions (f : Element) : Set Mention :=
  {m | supportsApi (some ((f.get? "api").getD apiName)) = true ∧
    m ∈ requiredMentions f (.feature f)}

/-- The mentions in an extension, if it is supported. -/
def extensionMentions (x : Element) : Set Mention :=
  {m | isSupported x = true ∧ m ∈ requiredMentions x (.extension x)}

/-- All mentions of values in a document tree. -/
def mentions (root : Element) : Set Mention :=
  {m | ∃ b ∈ root.childrenNamed "enums", m ∈ blockMentions b} ∪
    {m | ∃ f ∈ root.childrenNamed "feature", m ∈ featureMentions f} ∪
    {m | ∃ x ∈ root.grandchildrenNamed "extensions" "extension", m ∈ extensionMentions x}

/-- An attribute holds an integer. -/
def IntegerAt (e : Element) (attr : String) (n : Int) : Prop :=
  ∃ text, e.get? attr = some text ∧ readCInteger signRoom text.toList = .ok (some n)

/-- The site belongs to the API. Features and extensions of other APIs mention nothing. -/
def Site.OfApi : Site → Prop
  | .block b => supportsApi (b.get? "api") = true
  | _ => True

/-- The number of the extension. -/
def Site.Number : Site → Int → Prop
  | .extension x, n => IntegerAt x "number" n
  | _, _ => False

namespace Mention

/-- The offset, which is heeded everywhere but in a block. -/
def offset? (m : Mention) : Option String :=
  match m.site with
  | .block _ => none
  | _ => m.element.get? "offset"

/-- The number of the extension in whose range the offset is: the mention's own, or that of the
extension around it. -/
def RangeNumber (m : Mention) (n : Int) : Prop :=
  IntegerAt m.element "extnumber" n ∨ m.element.get? "extnumber" = none ∧ m.site.Number n

/-- What a mention says about its value. Of several attributes that do so the first one counts, in
the order of the constructors. -/
inductive Says (m : Mention) : EnumMeaning → Prop
  | offset {text : String} {number offset : Int} (htext : m.offset? = some text)
      (hoffset : readCInteger signRoom text.toList = .ok (some offset))
      (hnumber : m.RangeNumber number) :
      Says m (.number
        ((if m.element.get? "dir" = some "-" then -1 else 1) *
          (1000000000 + (number - 1) * 1000 + offset)))
  | aliasOf {target : String} (hoffset : m.offset? = none)
      (htarget : m.element.nonempty? "alias" = some target) : Says m (.aliasOf target)
  | bit {position : Int} (hoffset : m.offset? = none)
      (halias : m.element.nonempty? "alias" = none)
      (hposition : IntegerAt m.element "bitpos" position) : Says m (.bit position)
  | number {value : Int} (hoffset : m.offset? = none)
      (halias : m.element.nonempty? "alias" = none) (hbit : m.element.get? "bitpos" = none)
      (hvalue : IntegerAt m.element "value" value) : Says m (.number value)

/-- The value is what the mention gives if it is the first one of its name. -/
def Gives (m : Mention) (v : EnumValue) : Prop :=
  v.name = m.element.get? "name" ∧ m.Says v.meaning

/-- The value stands for the mention: it is given by it or agrees with what is given by it. -/
def IsHeldBy (m : Mention) (v : EnumValue) : Prop :=
  ∃ w, m.Gives w ∧ v.name = w.name ∧ v.integer? = w.integer? ∧ v.aliasTarget? = w.aliasTarget?

end Mention

/-! ## Reading one mention -/

section

variable {root e : Element} {origin attr : String} {number? : Option Int} {j k : Int}
  {v : EnumValue} {m : Mention} {meaning meaning' : EnumMeaning}

theorem IntegerAt.unique (hj : IntegerAt e attr j) (hk : IntegerAt e attr k) : j = k := by
  obtain ⟨text, htext, hj⟩ := hj
  obtain ⟨text', htext', hk⟩ := hk
  obtain rfl := Option.some.inj (htext.symm.trans htext')
  exact Option.some.inj (Except.ok.inj (hj.symm.trans hk))

theorem IntegerAt.get?_ne_none (h : IntegerAt e attr k) : e.get? attr ≠ none := by
  obtain ⟨text, htext, -⟩ := h
  simp [htext]

theorem Mention.RangeNumber.unique (hj : m.RangeNumber j) (hk : m.RangeNumber k) : j = k := by
  rcases hj with hj | ⟨hnone, hj⟩
  · rcases hk with hk | ⟨hnone, -⟩
    · exact hj.unique hk
    · exact absurd hnone hj.get?_ne_none
  · rcases hk with hk | ⟨-, hk⟩
    · exact absurd hnone hk.get?_ne_none
    · cases hsite : m.site with
      | extension x =>
        rw [hsite] at hj hk
        exact IntegerAt.unique hj hk
      | _ =>
        rw [hsite] at hj
        exact hj.elim

theorem Mention.Says.unique (h : m.Says meaning) (h' : m.Says meaning') : meaning = meaning' := by
  cases h with
  | offset htext hoffset hnumber =>
    cases h' with
    | offset htext' hoffset' hnumber' =>
      obtain rfl := Option.some.inj (htext.symm.trans htext')
      obtain rfl := Option.some.inj (Except.ok.inj (hoffset.symm.trans hoffset'))
      rw [hnumber.unique hnumber']
    | _ => simp_all
  | aliasOf hoffset htarget =>
    cases h' with
    | aliasOf _ htarget' => rw [Option.some.inj (htarget.symm.trans htarget')]
    | _ => simp_all
  | bit hoffset halias hposition =>
    cases h' with
    | bit _ _ hposition' => rw [hposition.unique hposition']
    | number _ _ hnone _ => exact absurd hnone hposition.get?_ne_none
    | _ => simp_all
  | number hoffset halias hbit hvalue =>
    cases h' with
    | number _ _ _ hvalue' => rw [hvalue.unique hvalue']
    | bit _ _ hposition => exact absurd hbit hposition.get?_ne_none
    | _ => simp_all

/-- Only blocks may be of another API. -/
theorem exists_block_of_not_ofApi (hm : m ∈ mentions root) (hapi : ¬m.site.OfApi) :
    ∃ b ∈ root.childrenNamed "enums", (b.get? "name").getD "" = m.enum ∧
      supportsApi (b.get? "api") = false := by
  rcases hm with (⟨b, hb, -, hsite, hname, -⟩ | ⟨f, -, -, hsite, -⟩) | ⟨x, -, -, hsite, -⟩
  · rw [hsite] at hapi
    exact ⟨b, hb, hname.symm, by simpa [Site.OfApi] using hapi⟩
  · rw [hsite] at hapi
    exact absurd trivial hapi
  · rw [hsite] at hapi
    exact absurd trivial hapi

theorem get?_of_nonempty? {attr text : String} (h : e.nonempty? attr = some text) :
    e.get? attr = some text :=
  (Option.filter_eq_some_iff.mp h).1

theorem readCInteger_of_integerAttribute {attr text : String} {n : Int}
    (h : integerAttribute e attr text = .ok n) :
    readCInteger signRoom text.toList = .ok (some n) := by
  obtain ⟨n?, hread, h⟩ := Result.bind_eq_ok_iff.mp h
  cases n? with
  | none => exact absurd h Result.reject_ne_ok
  | some n' => rw [hread, Result.pure_eq_ok_iff.mp h]

theorem gives_of_enumValue (hoffset : m.offset? = none)
    (h : enumValue m.element origin = .ok v) : m.Gives v := by
  rw [enumValue] at h
  split at h
  · exact absurd h Result.reject_ne_ok
  · next n hname =>
    have hname := get?_of_nonempty? hname
    split at h
    · next halias =>
      rw [← Except.ok.inj h]
      exact ⟨hname.symm, .aliasOf hoffset halias⟩
    · next text halias hbit =>
      obtain ⟨position, hposition, h⟩ := Result.bind_eq_ok_iff.mp h
      rw [← Result.pure_eq_ok_iff.mp h]
      have hposition := readCInteger_of_integerAttribute hposition
      exact ⟨hname.symm, .bit hoffset halias ⟨text, hbit, hposition⟩⟩
    · next text halias hbit hvalue =>
      obtain ⟨value, hnumber, h⟩ := Result.bind_eq_ok_iff.mp h
      rw [← Result.pure_eq_ok_iff.mp h]
      have hnumber := readCInteger_of_integerAttribute hnumber
      exact ⟨hname.symm, .number hoffset halias hbit ⟨text, hvalue, hnumber⟩⟩
    · exact absurd h Result.reject_ne_ok

theorem offsetValue_eq (number offset : Int) (e : Element) :
    offsetValue number offset (e.get? "dir" == some "-") =
      (if e.get? "dir" = some "-" then -1 else 1) *
        (1000000000 + (number - 1) * 1000 + offset) := by
  rw [offsetValue, extensionBase, extensionRange]
  by_cases hdir : e.get? "dir" = some "-"
  · simp [hdir]
  · simp [hdir]

theorem gives_of_offset {text : String} {number : Int} (htext : m.offset? = some text)
    (hnumber : m.RangeNumber number)
    (h : (do
      let offset ← integerAttribute m.element "offset" text
      let value := offsetValue number offset (m.element.get? "dir" == some "-")
      return { name := m.element.get? "name", meaning := .number value, origin }) =
        Except.ok v) : m.Gives v := by
  obtain ⟨offset, hoffset, h⟩ := Result.bind_eq_ok_iff.mp h
  rw [← Result.pure_eq_ok_iff.mp h]
  refine ⟨rfl, ?_⟩
  dsimp only
  rw [offsetValue_eq]
  exact .offset htext (readCInteger_of_integerAttribute hoffset) hnumber

theorem gives_of_extensionValue (hoffset : m.offset? = m.element.get? "offset")
    (hnumber : ∀ n, number? = some n → m.site.Number n)
    (h : extensionValue m.element number? origin = .ok v) : m.Gives v := by
  rw [extensionValue] at h
  split at h
  · next hnone => exact gives_of_enumValue (hoffset.trans hnone) h
  · next text htext =>
    have htext := hoffset.trans htext
    dsimp only at h
    split at h
    · next numberText hown =>
      obtain ⟨found?, hfound, h⟩ := Result.bind_eq_ok_iff.mp h
      obtain ⟨number, hread, rfl⟩ := Result.map_eq_ok_iff.mp hfound
      have hread := readCInteger_of_integerAttribute hread
      exact gives_of_offset htext (Or.inl ⟨numberText, hown, hread⟩) h
    · next hnone =>
      obtain ⟨found?, hfound, h⟩ := Result.bind_eq_ok_iff.mp h
      obtain rfl := Result.pure_eq_ok_iff.mp hfound
      cases number? with
      | none => exact absurd h Result.reject_ne_ok
      | some number => exact gives_of_offset htext (Or.inr ⟨hnone, hnumber number rfl⟩) h

end

/-! ## Loading -/

/-- The names of enums, each with one of its values. -/
def contents (enums : Table String EnumDecl) : Set (String × EnumValue) :=
  {entry | ∃ decl, enums.get? entry.1 = some decl ∧ entry.2 ∈ decl.values}

/-- From contents `A` to contents `B` the mentions `M` are loaded. -/
structure Loads (M : Set Mention) (A B : Set (String × EnumValue)) : Prop where
  subset : A ⊆ B
  mem_or_given : ∀ name v, (name, v) ∈ B → (name, v) ∈ A ∨ ∃ m ∈ M, m.enum = name ∧ m.Gives v
  held : ∀ m ∈ M, ∃ v, (m.enum, v) ∈ B ∧ m.IsHeldBy v

namespace Loads

variable {M N : Set Mention} {A B C : Set (String × EnumValue)} {α β : Type}

theorem empty (A : Set (String × EnumValue)) : Loads ∅ A A where
  subset := Set.Subset.refl A
  mem_or_given _ _ h := Or.inl h
  held m hm := absurd hm (Set.notMem_empty m)

theorem union (h : Loads M A B) (h' : Loads N B C) : Loads (M ∪ N) A C where
  subset := Set.Subset.trans h.subset h'.subset
  mem_or_given := by
    intro name v hv
    rcases h'.mem_or_given name v hv with hv | ⟨m, hm, hgives⟩
    · rcases h.mem_or_given name v hv with hv | ⟨m, hm, hgives⟩
      · exact Or.inl hv
      · exact Or.inr ⟨m, Or.inl hm, hgives⟩
    · exact Or.inr ⟨m, Or.inr hm, hgives⟩
  held := by
    rintro m (hm | hm)
    · obtain ⟨v, hv, hheld⟩ := h.held m hm
      exact ⟨v, h'.subset hv, hheld⟩
    · exact h'.held m hm

theorem foldlM (content : β → Set (String × EnumValue)) {f : β → α → Result β} {xs : List α}
    {start final : β} {M : α → Set Mention}
    (h : xs.foldlM f start = .ok final)
    (hstep : ∀ x ∈ xs, ∀ b b', f b x = .ok b' → Loads (M x) (content b) (content b')) :
    Loads {m | ∃ x ∈ xs, m ∈ M x} (content start) (content final) := by
  induction xs generalizing start with
  | nil =>
    rw [List.foldlM_nil, Result.pure_eq_ok_iff] at h
    simpa [h] using empty (content final)
  | cons x xs ih =>
    rw [List.forall_mem_cons] at hstep
    rw [List.foldlM_cons] at h
    obtain ⟨b, hb, h⟩ := Result.bind_eq_ok_iff.mp h
    have hunion := (hstep.1 start b hb).union (ih h hstep.2)
    have hmentions : M x ∪ {m | ∃ y ∈ xs, m ∈ M y} = {m | ∃ y ∈ x :: xs, m ∈ M y} := by
      ext m
      simp
    rwa [hmentions] at hunion

/-- The same mentions may be described in another way. -/
theorem congr (h : Loads M A B) (hmentions : ∀ m, m ∈ M ↔ m ∈ N) : Loads N A B := by
  rwa [← Set.ext hmentions]

theorem of_forall_notMem (h : ∀ m, m ∉ M) (A : Set (String × EnumValue)) : Loads M A A := by
  rw [Set.eq_empty_of_forall_notMem h]
  exact empty A

end Loads

section

variable {root e p b r : Element} {origin name : String} {number? : Option Int} {v w : EnumValue}
  {enums : Table String EnumDecl} {decl decl' : EnumDecl} {m : Mention} {site : Site}

theorem mem_contents_insert {name' : String} :
    (name', v) ∈ contents (enums.insert name decl) ↔
      name' = name ∧ v ∈ decl.values ∨ name' ≠ name ∧ (name', v) ∈ contents enums := by
  by_cases hname : name' = name
  · subst hname
    simp [contents, Table.get?_insert_self]
  · simp [contents, Table.get?_insert_of_ne _ hname, hname]

theorem notMem_contents_of_not_contains (hnew : ¬enums.contains name = true) :
    (name, v) ∉ contents enums := by
  rintro ⟨decl, hdecl, -⟩
  exact hnew ((enums.contains_iff name).mpr (enums.mem_keys_iff.mpr ⟨decl, hdecl⟩))

/-! ### One mention -/

/-- The values of an enum, each with the name of the enum. -/
def entriesOf (name : String) (decl : EnumDecl) : Set (String × EnumValue) :=
  {entry | entry.1 = name ∧ entry.2 ∈ decl.values}

theorem entriesOf_eq_empty (hvalues : decl.values = []) : entriesOf name decl = ∅ := by
  ext entry
  simp [entriesOf, hvalues]

/-- **One mention is loaded** by adding what it gives. -/
theorem loads_addValue (hgives : m.Gives w) (h : decl.addValue w = .ok decl') :
    Loads {m} (entriesOf m.enum decl) (entriesOf m.enum decl') := by
  rcases EnumDecl.addValue_eq_ok_iff.mp h with ⟨known, hknown, hagrees, rfl⟩ | ⟨-, -, rfl⟩
  · have hname : known.name = w.name := by simpa using List.find?_some hknown
    refine ⟨Set.Subset.refl _, fun _ _ h ↦ Or.inl h, ?_⟩
    rintro m' rfl
    exact ⟨known, ⟨rfl, List.mem_of_find?_eq_some hknown⟩, w, hgives, hname,
      hagrees.integer?_eq, hagrees.2⟩
  · refine ⟨?_, ?_, ?_⟩
    · rintro ⟨name, v⟩ ⟨hname, hv⟩
      exact ⟨hname, List.mem_append_left _ hv⟩
    · rintro name v ⟨hname, hv⟩
      rcases List.mem_append.mp hv with hv | hv
      · exact Or.inl ⟨hname, hv⟩
      · obtain rfl : v = w := List.mem_singleton.mp hv
        exact Or.inr ⟨m, rfl, hname.symm, hgives⟩
    · rintro m' rfl
      exact ⟨w, ⟨rfl, by simp⟩, w, hgives, rfl, rfl, rfl⟩

/-- What is loaded into one of the enums is loaded into the enums. -/
theorem loads_insert {M : Set Mention} {A : Set (String × EnumValue)}
    (hA : ∀ v, (name, v) ∈ contents enums ↔ (name, v) ∈ A)
    (h : Loads M A (entriesOf name decl)) :
    Loads M (contents enums) (contents (enums.insert name decl)) := by
  refine ⟨?_, ?_, ?_⟩
  · rintro ⟨name', v⟩ hv
    rw [mem_contents_insert]
    by_cases hname : name' = name
    · subst hname
      have hmem : (name', v) ∈ entriesOf name' decl := h.subset ((hA v).mp hv)
      exact Or.inl hmem
    · exact Or.inr ⟨hname, hv⟩
  · intro name' v hv
    rcases mem_contents_insert.mp hv with ⟨rfl, hmem⟩ | ⟨-, hmem⟩
    · rcases h.mem_or_given name' v ⟨rfl, hmem⟩ with hmem | hgiven
      · exact Or.inl ((hA v).mpr hmem)
      · exact Or.inr hgiven
    · exact Or.inl hmem
  · intro m hm
    obtain ⟨v, hmem, hheld⟩ := h.held m hm
    exact ⟨v, mem_contents_insert.mpr (Or.inl hmem), hheld⟩

/-! ### Blocks -/

theorem loads_enumBlock (h : enumBlock b name = .ok decl) :
    Loads {m | m.site = .block b ∧ m.enum = name ∧ m.element ∈ b.childrenNamed "enum" ∧
      supportsApi (m.element.get? "api") = true} ∅ (entriesOf name decl) := by
  obtain ⟨bitWidth, -, h⟩ := Result.bind_eq_ok_iff.mp h
  have hstep : ∀ e ∈ (b.childrenNamed "enum").filter fun v ↦ supportsApi (v.get? "api"),
      ∀ decl decl' : EnumDecl, (do
        let value ← enumValue e coreOrigin
        decl.addValue value) = .ok decl' →
      Loads {⟨name, e, .block b⟩} (entriesOf name decl) (entriesOf name decl') := by
    intro e _ decl decl' hstep
    obtain ⟨value, hvalue, hadd⟩ := Result.bind_eq_ok_iff.mp hstep
    have hgives : Mention.Gives ⟨name, e, .block b⟩ value := gives_of_enumValue rfl hvalue
    exact loads_addValue hgives hadd
  have hloads := Loads.foldlM (entriesOf name) h hstep
  rw [entriesOf_eq_empty rfl] at hloads
  refine hloads.congr fun m ↦ ?_
  constructor
  · rintro ⟨e, he, rfl⟩
    obtain ⟨he, hapi⟩ := List.mem_filter.mp he
    exact ⟨rfl, rfl, he, hapi⟩
  · obtain ⟨enum, e, site⟩ := m
    rintro ⟨rfl, rfl, he, hapi⟩
    exact ⟨e, List.mem_filter.mpr ⟨he, hapi⟩, rfl⟩

theorem loads_addBlock {tables tables' : EnumTables} (h : addBlock tables b = .ok tables') :
    Loads (blockMentions b) (contents tables.enums) (contents tables'.enums) := by
  rw [addBlock] at h
  split at h
  · next hreserved =>
    obtain ⟨constants, -, h⟩ := Result.bind_eq_ok_iff.mp h
    rw [← Result.pure_eq_ok_iff.mp h]
    exact Loads.of_forall_notMem (fun m hm ↦ hm.1 (beq_iff_eq.mp hreserved)) _
  · next hreserved =>
    split at h
    · exact absurd h Result.reject_ne_ok
    · next hnew =>
      obtain ⟨decl, hdecl, h⟩ := Result.bind_eq_ok_iff.mp h
      rw [← Result.pure_eq_ok_iff.mp h]
      have hblock := (loads_enumBlock hdecl).congr (N := blockMentions b) fun m ↦ by
        simp [blockMentions, show (b.get? "name").getD "" ≠ constantsBlock by simpa using hreserved]
      exact loads_insert (fun v ↦ iff_of_false (notMem_contents_of_not_contains hnew) id) hblock

theorem loads_enumTables {tables : EnumTables} (h : enumTables root = .ok tables) :
    Loads {m | ∃ b ∈ root.childrenNamed "enums", m ∈ blockMentions b} ∅
      (contents tables.enums) := by
  have hloads := Loads.foldlM (fun tables : EnumTables ↦ contents tables.enums) h
    fun b _ tables tables' hstep ↦ loads_addBlock hstep
  have hstart : contents (Table.empty : Table String EnumDecl) = ∅ := by
    ext entry
    simp [contents, Table.get?, Table.empty]
  rwa [hstart] at hloads

theorem contents_addEmptyEnums (types : Table TypeName TypeDecl) :
    contents (addEmptyEnums types enums) = contents enums := by
  rw [addEmptyEnums]
  generalize types.values = decls
  induction decls generalizing enums with
  | nil => rfl
  | cons decl decls ih =>
    rw [List.foldl_cons, ih]
    split
    · next name =>
      rw [Table.insertNew]
      split
      · rfl
      · next hnew =>
        ext ⟨name', v⟩
        rw [mem_contents_insert]
        by_cases hname : name' = name
        · subst hname
          simp [notMem_contents_of_not_contains hnew]
        · simp [hname]
    · rfl

/-! ### Features and extensions -/

/-- At a site that is no block, offsets are heeded, and the number is that of the extension, if the
site is one. -/
structure Site.HasNumber (site : Site) (number? : Option Int) : Prop where
  offset?_eq : ∀ m : Mention, m.site = site → m.offset? = m.element.get? "offset"
  number : ∀ n, number? = some n → site.Number n

theorem loads_addEnum {c c' : Collected} (hsite : site.HasNumber number?)
    (h : addEnum number? origin c e = .ok c') :
    Loads {m | m.site = site ∧ m.element = e ∧ e.nonempty? "extends" = some m.enum}
      (contents c.enums) (contents c'.enums) := by
  rw [addEnum] at h
  split at h
  · next hnone =>
    rw [← Except.ok.inj h]
    exact Loads.of_forall_notMem (fun m hm ↦ by simp [hnone] at hm) _
  · next block hblock =>
    split at h
    · exact absurd h Result.reject_ne_ok
    · next decl hget =>
      obtain ⟨value, hvalue, h⟩ := Result.bind_eq_ok_iff.mp h
      obtain ⟨decl', hadd, h⟩ := Result.bind_eq_ok_iff.mp h
      rw [← Result.pure_eq_ok_iff.mp h]
      have hgives : Mention.Gives ⟨block, e, site⟩ value :=
        gives_of_extensionValue (hsite.offset?_eq _ rfl) hsite.number hvalue
      refine (loads_insert (fun v ↦ ?_) (loads_addValue hgives hadd)).congr fun m ↦ ?_
      · simp [contents, entriesOf, hget]
      · obtain ⟨enum, e', site'⟩ := m
        rw [hblock]
        constructor
        · rintro ⟨⟩
          exact ⟨rfl, rfl, rfl⟩
        · rintro ⟨rfl, rfl, hname⟩
          rw [Option.some.inj hname]
          rfl

theorem loads_addRequire {c c' : Collected} (hsite : site.HasNumber number?)
    (h : addRequire number? origin c r = .ok c') :
    Loads {m | m.site = site ∧ m.element ∈ r.childrenNamed "enum" ∧
      m.element.nonempty? "extends" = some m.enum} (contents c.enums) (contents c'.enums) := by
  rw [addRequire] at h
  have hloads := Loads.foldlM (fun c : Collected ↦ contents c.enums) h
    fun e _ _ _ hstep ↦ loads_addEnum hsite hstep
  refine hloads.congr fun m ↦ ?_
  constructor
  · rintro ⟨e, he, hm, rfl, hextends⟩
    exact ⟨hm, he, hextends⟩
  · rintro ⟨hm, he, hextends⟩
    exact ⟨m.element, he, hm, rfl, hextends⟩

theorem loads_collect {c : Collected} (hsite : site.HasNumber number?)
    (h : collect p origin number? enums = .ok c) :
    Loads (requiredMentions p site) (contents enums) (contents c.enums) := by
  have hloads := Loads.foldlM (fun c : Collected ↦ contents c.enums) h
    fun r _ _ _ hstep ↦ loads_addRequire hsite hstep
  refine hloads.congr fun m ↦ ?_
  constructor
  · rintro ⟨r, hr, hm, he, hextends⟩
    obtain ⟨hr, hapi⟩ := List.mem_filter.mp hr
    exact ⟨hm, r, hr, hapi, he, hextends⟩
  · rintro ⟨hm, r, hr, hapi, he, hextends⟩
    exact ⟨r, List.mem_filter.mpr ⟨hr, hapi⟩, hm, he, hextends⟩

theorem loads_features {result : List Feature × Table String EnumDecl}
    (h : features root enums = .ok result) :
    Loads {m | ∃ f ∈ root.childrenNamed "feature", m ∈ featureMentions f} (contents enums)
      (contents result.2) := by
  refine Loads.foldlM (fun state : List Feature × Table String EnumDecl ↦ contents state.2) h ?_
  intro f _ state state' hstep
  rw [addFeature] at hstep
  split at hstep
  · next hforeign =>
    rw [← Except.ok.inj hstep]
    exact Loads.of_forall_notMem (fun m hm ↦ by simp [hm.1] at hforeign) _
  · next hapi =>
    obtain ⟨c, hc, hstep⟩ := Result.bind_eq_ok_iff.mp hstep
    rw [← Result.pure_eq_ok_iff.mp hstep]
    have hsite : (Site.feature f).HasNumber none := by
      refine ⟨?_, by simp⟩
      rintro ⟨_, _, _⟩ rfl
      rfl
    refine (loads_collect hsite hc).congr fun m ↦ ?_
    exact ⟨fun hm ↦ ⟨by simpa using hapi, hm⟩, fun hm ↦ hm.2⟩

theorem loads_extensions {result : List Extension × Table String EnumDecl}
    (h : extensions root enums = .ok result) :
    Loads {m | ∃ x ∈ root.grandchildrenNamed "extensions" "extension", m ∈ extensionMentions x}
      (contents enums) (contents result.2) := by
  refine Loads.foldlM (fun state : List Extension × Table String EnumDecl ↦ contents state.2) h ?_
  intro x _ state state' hstep
  rw [addExtension] at hstep
  split at hstep
  · next hunsupported =>
    rw [← Except.ok.inj hstep]
    exact Loads.of_forall_notMem (fun m hm ↦ by simp [hm.1] at hunsupported) _
  · next hsupported =>
    split at hstep
    · next name text hname htext =>
      obtain ⟨number, hnumber, hstep⟩ := Result.bind_eq_ok_iff.mp hstep
      obtain ⟨c, hc, hstep⟩ := Result.bind_eq_ok_iff.mp hstep
      obtain ⟨version, -, hstep⟩ := Result.bind_eq_ok_iff.mp hstep
      rw [← Result.pure_eq_ok_iff.mp hstep]
      have hsite : (Site.extension x).HasNumber (some number) := by
        refine ⟨?_, ?_⟩
        · rintro ⟨_, _, _⟩ rfl
          rfl
        · rintro _ ⟨⟩
          exact ⟨text, htext, readCInteger_of_integerAttribute hnumber⟩
      refine (loads_collect hsite hc).congr fun m ↦ ?_
      exact ⟨fun hm ↦ ⟨by simpa using hsupported, hm⟩, fun hm ↦ hm.2⟩
    · exact absurd hstep Result.reject_ne_ok

/-- **The enums of a document are loaded from its mentions.** -/
theorem loads_ofElement {d : Document} (h : Document.ofElement root = .ok d) :
    Loads (mentions root) ∅ (contents d.enums) := by
  obtain ⟨tables, commandTables, enums, hread⟩ := Document.readFrom_of_ofElement h
  have hblocks := loads_enumTables hread.tables_read
  have hfeatures := loads_features hread.features_read
  rw [contents_addEmptyEnums] at hfeatures
  exact (hblocks.union hfeatures).union (loads_extensions hread.extensions_read)

/-- **The enums of a document hold what is mentioned.** The names of the values of an enum differ,
and so do the bit positions. A mention is found under its name, with the integer and the alias that
it says, if it is in no block of another API. Every value of an enum that has no block of another
API is given by a mention. This is said of documents without negative bit positions, since there
every value has the integer that it stands for. -/
theorem enums_match_mentions {d : Document} (h : Document.ofElement root = .ok d)
    (hbits : ∀ name decl, d.enums.get? name = some decl →
      ∀ v ∈ decl.values, ∀ bit, v.bit? = some bit → 0 ≤ bit) :
    (∀ name decl, d.enums.get? name = some decl →
      (decl.values.map (·.name)).Nodup ∧ (decl.values.filterMap (·.bit?)).Nodup) ∧
    (∀ m ∈ mentions root, m.site.OfApi → ∃ decl v meaning, d.enums.get? m.enum = some decl ∧
      decl.values.find? (·.name == m.element.get? "name") = some v ∧ m.Says meaning ∧
      v.integer? = .ok meaning.integer ∧ v.aliasTarget? = meaning.target?) ∧
    ∀ name decl, d.enums.get? name = some decl → ∀ v ∈ decl.values,
      (∃ m ∈ mentions root, m.enum = name ∧ m.site.OfApi ∧ m.Gives v) ∨
      ∃ b ∈ root.childrenNamed "enums", (b.get? "name").getD "" = name ∧
        supportsApi (b.get? "api") = false := by
  have haccepted : d.Accepted := ⟨root, h⟩
  have hloads := loads_ofElement h
  have hnamed : ∀ name decl, d.enums.get? name = some decl → (decl.values.map (·.name)).Nodup :=
    fun name decl hdecl ↦ (haccepted.forall_enums keptNamed name decl hdecl).2
  refine ⟨?_, ?_, ?_⟩
  · intro name decl hdecl
    exact ⟨hnamed name decl hdecl, haccepted.forall_enums keptBits name decl hdecl⟩
  · intro m hm _
    obtain ⟨v, ⟨decl, hdecl, hv⟩, w, ⟨hwname, hmeaning⟩, hname, hinteger, htarget⟩ :=
      hloads.held m hm
    obtain ⟨k, hk⟩ := EnumValue.exists_integer?_eq_ok_iff.mpr (hbits _ _ hdecl v hv)
    have hw : k = w.meaning.integer := EnumValue.eq_integer_of_integer? (hinteger ▸ hk)
    refine ⟨decl, v, w.meaning, hdecl, ?_, hmeaning, hw ▸ hk, htarget.trans w.aliasTarget?_eq⟩
    rw [← hwname, ← hname]
    exact EnumDecl.find?_name_of_mem (hnamed _ _ hdecl) hv
  · intro name decl hdecl v hv
    rcases hloads.mem_or_given name v ⟨decl, hdecl, hv⟩ with hnone | ⟨m, hm, hname, hgives⟩
    · exact absurd hnone (Set.notMem_empty _)
    · by_cases hapi : m.site.OfApi
      · exact Or.inl ⟨m, hm, hname, hapi, hgives⟩
      · exact Or.inr (hname ▸ exists_block_of_not_ofApi hm hapi)

/-! ## A document with an offset and a foreign mention -/

/-- A value that is given by an offset below zero. -/
def lateElement : Element :=
  ⟨"enum", [("extends", "XrMode"), ("name", "XR_MODE_LATE_EXT"), ("offset", "1"), ("dir", "-")], "",
    [], ""⟩

/-- A value of another API. -/
def foreignElement : Element :=
  ⟨"enum", [("name", "XR_MODE_FOREIGN"), ("value", "2"), ("api", "vulkan")], "", [], ""⟩

/-- The block of an enum. -/
def rangesBlock : Element :=
  ⟨"enums", [("name", "XrMode")], "", [
    ⟨"enum", [("name", "XR_MODE_SHOW"), ("value", "1")], "", [], ""⟩, foreignElement], ""⟩

/-- What the extension brings in. -/
def rangesRequire : Element := ⟨"require", [], "", [lateElement], ""⟩

/-- An extension of the enum. -/
def rangesExtension : Element :=
  ⟨"extension", [("name", "XR_EXT_late"), ("number", "2")], "", [rangesRequire], ""⟩

/-- A document with the block and the extension. -/
def rangesRegistry : Element :=
  ⟨"registry", [], "", [rangesBlock, ⟨"extensions", [], "", [rangesExtension], ""⟩], ""⟩

def rangesEnum : EnumDecl where
  name := "XrMode"
  kind := "enum"
  values := [
    { name := some "XR_MODE_SHOW", meaning := .number 1, origin := "core" },
    { name := some "XR_MODE_LATE_EXT", meaning := .number (-1000001001), origin := "XR_EXT_late" }]

def rangesDocument : Document where
  tags := []
  types := .empty
  enums := Table.ofList [("XrMode", rangesEnum)]
  commands := .empty
  commandAliases := .empty
  apiConstants := .empty
  features := []
  extensions := [{
    name := "XR_EXT_late", number := 2, vendorTag := "EXT", version := 0, extType := ""
    promotedTo := none, depends := "", required := { enums := [some "XR_MODE_LATE_EXT"] } }]
  origins := Table.ofList [(some "XR_MODE_LATE_EXT", "XR_EXT_late")]
  version := "unknown"

def lateMention : Mention := ⟨"XrMode", lateElement, .extension rangesExtension⟩

theorem ofElement_rangesRegistry : Document.ofElement rangesRegistry = .ok rangesDocument := by
  with_unfolding_all rfl

theorem bit?_rangesDocument : ∀ name decl, rangesDocument.enums.get? name = some decl →
    ∀ v ∈ decl.values, ∀ bit, v.bit? = some bit → 0 ≤ bit := by
  intro name decl hdecl
  have hmem : decl ∈ rangesDocument.enums.values :=
    rangesDocument.enums.mem_values_iff.mpr ⟨name, hdecl⟩
  obtain rfl : decl = rangesEnum := List.mem_singleton.mp hmem
  decide

theorem lateMention_mem : lateMention ∈ mentions rangesRegistry := by
  have hx : rangesRegistry.grandchildrenNamed "extensions" "extension" = [rangesExtension] := by
    with_unfolding_all rfl
  have hr : rangesExtension.childrenNamed "require" = [rangesRequire] := by with_unfolding_all rfl
  have he : rangesRequire.childrenNamed "enum" = [lateElement] := by with_unfolding_all rfl
  refine Or.inr ⟨rangesExtension, by simp [hx], by decide +kernel, rfl, rangesRequire, by simp [hr],
    by decide +kernel, ?_, by decide +kernel⟩
  rw [he]
  exact List.mem_singleton_self _

theorem says_lateMention : lateMention.Says (.number (-1000001001)) := by
  have hoffset : readCInteger signRoom "1".toList = .ok (some 1) := by decide +kernel
  have hnumber : lateMention.RangeNumber 2 :=
    Or.inr ⟨by decide +kernel, "2", by decide +kernel, by decide +kernel⟩
  have htext : lateMention.offset? = some "1" := by decide +kernel
  have hdir : lateMention.element.get? "dir" = some "-" := by decide +kernel
  simpa [hdir] using Mention.Says.offset htext hoffset hnumber

/-- The value that is given by an offset has the integer that the offset stands for. -/
theorem enums_match_mentions_offset :
    Document.ofElement rangesRegistry = .ok rangesDocument ∧
      (∀ name decl, rangesDocument.enums.get? name = some decl →
        ∀ v ∈ decl.values, ∀ bit, v.bit? = some bit → 0 ≤ bit) ∧
      ∃ decl v, rangesDocument.enums.get? "XrMode" = some decl ∧
        decl.find? "XR_MODE_LATE_EXT" = some v ∧ v.integer? = .ok (some (-1000001001)) := by
  obtain ⟨-, hfound, -⟩ := enums_match_mentions ofElement_rangesRegistry bit?_rangesDocument
  obtain ⟨decl, v, meaning, hdecl, hv, hmeaning, hinteger, -⟩ := hfound _ lateMention_mem trivial
  rw [hmeaning.unique says_lateMention] at hinteger
  exact ⟨ofElement_rangesRegistry, bit?_rangesDocument, decl, v, hdecl, hv, hinteger⟩

/-- A mention of another API is not found, although its block belongs to the API. -/
theorem enums_match_mentions_foreign :
    Document.ofElement rangesRegistry = .ok rangesDocument ∧
      (∀ name decl, rangesDocument.enums.get? name = some decl →
        ∀ v ∈ decl.values, ∀ bit, v.bit? = some bit → 0 ≤ bit) ∧
      rangesBlock ∈ rangesRegistry.childrenNamed "enums" ∧
      supportsApi (rangesBlock.get? "api") = true ∧ rangesBlock.get? "name" = some "XrMode" ∧
      foreignElement ∈ rangesBlock.childrenNamed "enum" ∧
      foreignElement.get? "name" = some "XR_MODE_FOREIGN" ∧
      ∀ decl, rangesDocument.enums.get? "XrMode" = some decl →
        decl.find? "XR_MODE_FOREIGN" = none := by
  have hblock : rangesRegistry.childrenNamed "enums" = [rangesBlock] := by
    with_unfolding_all rfl
  have helement : rangesBlock.childrenNamed "enum" =
      [⟨"enum", [("name", "XR_MODE_SHOW"), ("value", "1")], "", [], ""⟩, foreignElement] := by
    with_unfolding_all rfl
  refine ⟨ofElement_rangesRegistry, bit?_rangesDocument, by simp [hblock], by decide +kernel,
    by decide +kernel, by simp [helement], by decide +kernel, ?_⟩
  intro decl hdecl
  have hget : rangesDocument.enums.get? "XrMode" = some rangesEnum := by decide +kernel
  obtain rfl := Option.some.inj (hdecl.symm.trans hget)
  decide +kernel

end

end Load

end XrBindings
