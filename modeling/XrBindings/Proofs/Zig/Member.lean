import XrBindings.Proofs.Naming.Numbered
import XrBindings.Proofs.Zig.Declaration

/-!
# Members read back from their lines

The members of a container are indented once. A field begins with its name, and a constant or a
function with its keywords; a colon between the name and a type belongs to neither. Lines that are
indented further belong to the body of a function, and a brace closes one.
-/

namespace XrBindings.Zig

variable {name line rest : String} {c : Char} {cs : List Char}

/-! ## Indented lines -/

/-- The text of a line behind so many spaces. -/
def indented? (depth : ℕ) (line : String) : Option (List Char) :=
  line.toList.dropPrefix? (List.replicate depth ' ')

theorem indented?_eq_none {depth n : ℕ} (hn : n < depth) (h : line.toList[n]? ≠ some ' ') :
    indented? depth line = none := by
  rw [indented?, Option.eq_none_iff_forall_ne_some]
  intro cs hcs
  obtain ⟨spaces, hline, hspaces⟩ := List.dropPrefix?_eq_some_iff.mp hcs
  obtain rfl := eq_of_beq hspaces
  rw [hline, List.getElem?_append_left (by simpa using hn), List.getElem?_replicate_of_lt hn] at h
  exact h rfl

/-- A text without a character at its end. -/
def withoutEnd (c : Char) (cs : List Char) : List Char :=
  if cs.getLast? = some c then cs.dropLast else cs

theorem withoutEnd_concat (cs : List Char) (c : Char) : withoutEnd c (cs ++ [c]) = cs := by
  simp [withoutEnd]

/-! ## Members of containers -/

/-- A declaration without the keywords before its name. -/
def withoutKeywords (cs : List Char) : List Char :=
  ((cs.dropPrefix? "pub const ".toList).or (cs.dropPrefix? "pub fn ".toList)).getD cs

/-- The name at the beginning of a text, without the colon that a type follows. -/
def leadingName (cs : List Char) : String := String.ofList (withoutEnd ':' (cutName false cs).1)

/-- The member that a line of a container begins, if it does: a field, a constant or a function. -/
def member? (line : String) : Option String :=
  ((indented? 4 line).filter fun cs ↦ cs.head?.any (!" \x7d".toList.contains ·)).map fun cs ↦
    leadingName (withoutKeywords cs)

/-- The members of a container, in their order. -/
def members (lines : List String) : List String := lines.filterMap member?

/-- The text can stand where a member begins. -/
structure IsMemberName (name : String) : Prop where
  isName : IsName name
  head?_ne : name.toList.head? ≠ some '}'

/-- A name does not begin with a space, which would end it. -/
theorem IsName.head?_ne (h : IsName name) : name.toList.head? ≠ some ' ' := by
  intro hspace
  obtain ⟨cs, hcs⟩ := List.head?_eq_some_iff.mp hspace
  have hcut := h []
  rw [hcs, List.cons_append, cutName_of_stop (Or.inl rfl)] at hcut
  simp [inFront] at hcut

theorem IsName.numbered (h : IsName name) (n : ℕ) : IsName (Naming.numbered name n) := by
  have hnumber : IsName (String.ofList ('_' :: Nat.toDigits 10 n)) :=
    isName_of_forall fun d hd ↦ Naming.isAlphanum_of_mem_number (String.toList_ofList ▸ hd)
  have hname : Naming.numbered name n = name ++ String.ofList ('_' :: Nat.toDigits 10 n) :=
    String.toList_injective (by rw [Naming.toList_numbered, String.toList_append,
      String.toList_ofList])
  exact hname ▸ h.append hnumber

namespace IsMemberName

theorem writeIdentifier (name : String) : IsMemberName (writeIdentifier name) := by
  refine ⟨isName_writeIdentifier name, ?_⟩
  rcases writeIdentifier_cases name with ⟨hname, hplain⟩ | hname
  · rw [hname]
    intro hbrace
    obtain ⟨cs, hcs⟩ := List.head?_eq_some_iff.mp hbrace
    rw [hcs] at hplain
    simp [isPlainWord] at hplain
  · rw [hname, toList_quoteIdentifier, List.head?_cons]
    decide

theorem numbered (h : IsMemberName name) (n : ℕ) : IsMemberName (Naming.numbered name n) := by
  refine ⟨h.isName.numbered n, ?_⟩
  rw [Naming.toList_numbered, List.head?_append]
  cases hhead : name.toList.head? with
  | none => simp
  | some c => simpa [hhead] using h.head?_ne

end IsMemberName

/-- The text can follow the name of a member: its type, behind a colon. -/
def BeginsType (rest : String) : Prop := ∃ cs, rest.toList = ':' :: ' ' :: cs

theorem cutName_of_beginsType (hname : IsName name) (hrest : BeginsType rest) :
    (cutName false (name ++ rest).toList).1 = name.toList ++ [':'] := by
  obtain ⟨cs, hcs⟩ := hrest
  rw [String.toList_append, hname, hcs, cutName_of_plain (by decide) (by decide) (by decide),
    cutName_of_stop (Or.inl rfl)]
  rfl

theorem leadingName_of_beginsType (hname : IsName name) (hrest : BeginsType rest) :
    leadingName (name ++ rest).toList = name := by
  rw [leadingName, cutName_of_beginsType hname hrest, withoutEnd_concat, String.ofList_toList]

theorem leadingName_of_endsName (hname : IsName name) (hlast : name.toList.getLast? ≠ some ':')
    (hrest : EndsName rest) : leadingName (name ++ rest).toList = name := by
  rw [leadingName, cutName_of_endsName hname hrest, withoutEnd, if_neg hlast, String.ofList_toList]

theorem withoutKeywords_of_isName (hname : IsName name) (hrest : BeginsType rest) :
    withoutKeywords (name ++ rest).toList = (name ++ rest).toList := by
  have hcut := cutName_of_beginsType hname hrest
  have hpub : ∀ cs, (name ++ rest).toList ≠ "pub ".toList ++ cs := by
    intro cs h
    rw [h] at hcut
    have hmem : ':' ∈ "pub".toList := by
      rw [show (cutName false ("pub ".toList ++ cs)).1 = "pub".toList from rfl] at hcut
      simp [hcut]
    exact absurd hmem (by decide)
  have hnone : ∀ keyword, (name ++ rest).toList.dropPrefix? ("pub ".toList ++ keyword) = none := by
    intro keyword
    rw [Option.eq_none_iff_forall_ne_some]
    intro cs hcs
    obtain ⟨start, hstart, hkeyword⟩ := List.dropPrefix?_eq_some_iff.mp hcs
    obtain rfl := eq_of_beq hkeyword
    exact hpub _ (hstart.trans (List.append_assoc _ _ _))
  rw [withoutKeywords, show "pub const ".toList = "pub ".toList ++ "const ".toList from rfl,
    show "pub fn ".toList = "pub ".toList ++ "fn ".toList from rfl, hnone, hnone]
  rfl

theorem member?_field (hname : IsMemberName name) (hrest : BeginsType rest) :
    member? ("    " ++ (name ++ rest)) = some name := by
  have hindent : indented? 4 ("    " ++ (name ++ rest)) = some (name ++ rest).toList := by
    simp [indented?, List.dropPrefix?]
  have hhead : (name ++ rest).toList.head?.any (!" \x7d".toList.contains ·) = true := by
    cases hchars : name.toList with
    | nil =>
      obtain ⟨cs, hcs⟩ := hrest
      rw [String.toList_append, hchars, hcs]
      rfl
    | cons c chars =>
      have hbrace : c ≠ '}' := by simpa [hchars] using hname.head?_ne
      have hspace : c ≠ ' ' := by simpa [hchars] using hname.isName.head?_ne
      simp [String.toList_append, hchars, hbrace, hspace]
  rw [member?, hindent, Option.filter_some, if_pos hhead, Option.map_some,
    withoutKeywords_of_isName hname.isName hrest, leadingName_of_beginsType hname.isName hrest]

theorem member?_const (text : String) :
    member? ("    pub const " ++ text) = some (leadingName text.toList) := by
  have hindent : indented? 4 ("    pub const " ++ text) =
      some ("pub const ".toList ++ text.toList) := by
    simp [indented?, List.dropPrefix?]
  have hkeywords : withoutKeywords ("pub const ".toList ++ text.toList) = text.toList := by
    rw [withoutKeywords, List.dropPrefix?_append_of_beq _ (by simp)]
    rfl
  rw [member?, hindent, Option.filter_some, if_pos (by rfl), Option.map_some, hkeywords]

theorem member?_fn (text : String) :
    member? ("    pub fn " ++ text) = some (leadingName text.toList) := by
  have hindent : indented? 4 ("    pub fn " ++ text) = some ("pub fn ".toList ++ text.toList) := by
    simp [indented?, List.dropPrefix?]
  have hkeywords : withoutKeywords ("pub fn ".toList ++ text.toList) = text.toList := by
    have hconst : ("pub fn ".toList ++ text.toList).dropPrefix? "pub const ".toList = none := by
      simp [List.dropPrefix?]
    rw [withoutKeywords, hconst, List.dropPrefix?_append_of_beq _ (by simp)]
    rfl
  rw [member?, hindent, Option.filter_some, if_pos (by rfl), Option.map_some, hkeywords]

theorem member?_of_head?_ne (h : line.toList.head? ≠ some ' ') : member? line = none := by
  rw [member?, indented?_eq_none (n := 0) (by decide) (by rwa [← List.head?_eq_getElem?])]
  rfl

/-- A line inside a member begins no member. -/
theorem member?_of_deeper (h : ∃ cs, line.toList = "     ".toList ++ cs) : member? line = none := by
  obtain ⟨cs, hcs⟩ := h
  have hindent : indented? 4 line = some (' ' :: cs) := by simp [indented?, hcs, List.dropPrefix?]
  rw [member?, hindent]
  rfl

variable {lines lines' : List String}

theorem members_append (lines lines' : List String) :
    members (lines ++ lines') = members lines ++ members lines' := List.filterMap_append

theorem members_cons_some (h : member? line = some name) :
    members (line :: lines) = name :: members lines := List.filterMap_cons_some h

theorem members_cons_none (h : member? line = none) : members (line :: lines) = members lines :=
  List.filterMap_cons_none h

theorem members_map {α : Type} {xs : List α} {line : α → String} {name : α → String}
    (h : ∀ x ∈ xs, member? (line x) = some (name x)) : members (xs.map line) = xs.map name := by
  rw [members, List.filterMap_map, ← List.filterMap_eq_map]
  exact List.filterMap_congr h

end XrBindings.Zig
