import XrBindings.Proofs.Zig.Member

/-!
# Switches read back from their lines

The arms of a switch over an enum are indented twice. Each pattern stands on a line of its own, a
tag behind a dot, or the underscore for all values without a tag. An arrow ends the patterns of an
arm, and what the arm does follows it. If the patterns are the tags of an enum and the underscore,
each once, every integer is covered by one arm.
-/

namespace XrBindings.Zig

variable {name line e : String} {lines : List String} {cs : List Char}

/-! ## Arms -/

/-- What an arm of a switch is for: the value with a tag, or all values without one. -/
inductive Pattern where
  | tag (name : String)
  | unnamed
  deriving DecidableEq

/-- An arm of a switch, with the error that it returns unless it is that of success. -/
structure Arm where
  patterns : List Pattern
  error? : Option String
  deriving DecidableEq

/-- The pattern covers an integer, where the enum has these tags and values. -/
def Pattern.covers (tags : List (String × Int)) (n : Int) : Pattern → Bool
  | tag name => tags.contains (name, n)
  | unnamed => !(tags.map (·.2)).contains n

/-- The arm is the one for an integer. -/
def Arm.applies (tags : List (String × Int)) (n : Int) (a : Arm) : Bool :=
  a.patterns.any (·.covers tags n)

/-- The pattern at the beginning of a line, if there is one, and what follows it. -/
def readPattern : List Char → List Pattern × List Char
  | '.' :: cs =>
    let (name, rest) := cutName false cs
    ([.tag (String.ofList (if rest.isEmpty then withoutEnd ',' name else name))], rest)
  | '_' :: cs => ([.unnamed], cs)
  | cs => ([], cs)

/-- What an arm does, if the text is an arrow and what follows it. -/
def readArrow? (cs : List Char) : Option (Option String) :=
  let cs := cs.dropWhile (· == ' ')
  if cs = "=> \x7b\x7d,".toList then some none
  else (cs.dropPrefix? "=> return error.".toList).map fun e ↦
    some (String.ofList (withoutEnd ',' e))

/-- The patterns of a line, and what their arm does if the line ends it. -/
def armLine? (line : String) : Option (List Pattern × Option (Option String)) :=
  (indented? 8 line).map fun cs ↦ ((readPattern cs).1, readArrow? (readPattern cs).2)

/-- The arms that lines write. `patterns` are those of the arm that has begun. -/
def readArms (patterns : List Pattern) : List String → List Arm
  | [] => []
  | line :: lines =>
    match armLine? line with
    | none => readArms patterns lines
    | some (more, none) => readArms (patterns ++ more) lines
    | some (more, some error?) => ⟨patterns ++ more, error?⟩ :: readArms [] lines

/-- The arms of the switch in a function. -/
def arms (lines : List String) : List Arm := readArms [] lines

/-- The error that a line of a set of errors lists. -/
def listedError? (line : String) : Option String :=
  ((indented? 4 line).filter fun cs ↦ cs.head? != some ' ' && cs.getLast? == some ',').map fun cs ↦
    String.ofList cs.dropLast

/-- The errors that lines list. -/
def listedErrors (lines : List String) : List String := lines.filterMap listedError?

/-! ## Lines of arms -/

theorem armLine?_tag (hname : IsName name) :
    armLine? ("        ." ++ name ++ ",") = some ([.tag name], none) := by
  have hindent : indented? 8 ("        ." ++ name ++ ",") = some ('.' :: (name ++ ",").toList) := by
    simp [indented?, List.replicate, List.dropPrefix?]
  have hcut : cutName false (name ++ ",").toList = (name.toList ++ [','], []) := by
    rw [String.toList_append, hname]
    rfl
  rw [armLine?, hindent, Option.map_some, readPattern, hcut]
  dsimp only
  rw [List.isEmpty_nil, if_pos rfl, withoutEnd_concat, String.ofList_toList]
  rfl

theorem readArrow?_error (e : String) :
    readArrow? (" => return error." ++ e ++ ",").toList = some (some e) := by
  have hchars : (" => return error." ++ e ++ ",").toList.dropWhile (· == ' ') =
      "=> return error.".toList ++ (e.toList ++ [',']) := by
    simp
  rw [readArrow?, hchars, if_neg (by simp), List.dropPrefix?_append_of_beq _ (by simp),
    Option.map_some, withoutEnd_concat, String.ofList_toList]

theorem armLine?_error (hname : IsName name) (e : String) :
    armLine? ("        ." ++ name ++ " => return error." ++ e ++ ",") =
      some ([.tag name], some (some e)) := by
  have hindent : indented? 8 ("        ." ++ name ++ " => return error." ++ e ++ ",") =
      some ('.' :: (name ++ (" => return error." ++ e ++ ",")).toList) := by
    simp [indented?, List.replicate, List.dropPrefix?]
  have hcut : cutName false (name ++ (" => return error." ++ e ++ ",")).toList =
      (name.toList, (" => return error." ++ e ++ ",").toList) :=
    cutName_of_endsName hname (Or.inl (by simp))
  rw [armLine?, hindent, Option.map_some, readPattern, hcut]
  dsimp only
  rw [if_neg (by simp), String.ofList_toList, readArrow?_error]

theorem armLine?_success : armLine? "        => \x7b\x7d," = some ([], some none) := by decide

/-- Lines that are indented less belong to no arm. -/
theorem armLine?_eq_none {n : ℕ} (hn : n < 8) (h : line.toList[n]? ≠ some ' ') :
    armLine? line = none := by
  rw [armLine?, indented?_eq_none hn h, Option.map_none]

/-! ## Reading on -/

variable {patterns : List Pattern}

theorem readArms_of_none {before : List String} (h : ∀ line ∈ before, armLine? line = none) :
    readArms patterns (before ++ lines) = readArms patterns lines := by
  induction before with
  | nil => rfl
  | cons line before ih =>
    rw [List.forall_mem_cons] at h
    rw [List.cons_append, readArms, h.1]
    exact ih h.2

/-- Tags on lines of their own belong to the arm that has begun. -/
theorem readArms_tags {names : List String} (h : ∀ n ∈ names, IsName n) :
    readArms patterns ((names.map fun n ↦ "        ." ++ n ++ ",") ++ lines) =
      readArms (patterns ++ names.map .tag) lines := by
  induction names generalizing patterns with
  | nil => rw [List.map_nil, List.map_nil, List.append_nil, List.nil_append]
  | cons n names ih =>
    rw [List.forall_mem_cons] at h
    rw [List.map_cons, List.cons_append, readArms, armLine?_tag h.1]
    dsimp only
    rw [ih h.2, List.append_assoc, List.map_cons, List.singleton_append]

theorem readArms_cons {more : List Pattern} {error? : Option String}
    (h : armLine? line = some (more, some error?)) :
    readArms patterns (line :: lines) = ⟨patterns ++ more, error?⟩ :: readArms [] lines := by
  rw [readArms, h]

/-! ## Errors -/

theorem listedError?_eq (h : e.toList.head? ≠ some ' ') :
    listedError? ("    " ++ e ++ ",") = some e := by
  have hindent : indented? 4 ("    " ++ e ++ ",") = some (e.toList ++ [',']) := by
    simp [indented?, List.replicate, List.dropPrefix?]
  have hhead : (e.toList ++ [',']).head? ≠ some ' ' := by
    rw [List.head?_append]
    cases hchars : e.toList.head? with
    | none => simp
    | some c => simpa [hchars] using h
  rw [listedError?, hindent, Option.filter_some, if_pos (by simpa using hhead), Option.map_some,
    List.dropLast_concat, String.ofList_toList]

theorem listedError?_eq_none {n : ℕ} (hn : n < 4) (h : line.toList[n]? ≠ some ' ') :
    listedError? line = none := by
  rw [listedError?, indented?_eq_none hn h]
  rfl

theorem listedError?_of_deeper (h : ∃ cs, line.toList = "     ".toList ++ cs) :
    listedError? line = none := by
  obtain ⟨cs, hcs⟩ := h
  have hindent : indented? 4 line = some (' ' :: cs) := by simp [indented?, hcs, List.dropPrefix?]
  rw [listedError?, hindent]
  rfl

theorem listedErrors_append (lines lines' : List String) :
    listedErrors (lines ++ lines') = listedErrors lines ++ listedErrors lines' :=
  List.filterMap_append

theorem listedErrors_of_none (h : ∀ line ∈ lines, listedError? line = none) :
    listedErrors lines = [] := List.filterMap_eq_nil_iff.mpr h

/-! ## Coverage -/

variable {tags : List (String × Int)}

/-- The patterns of an enum: its tags and the underscore. -/
def enumPatterns (tags : List (String × Int)) : List Pattern :=
  (tags.map fun t ↦ .tag t.1) ++ [.unnamed]

/-- The pattern for an integer: the tag with this value, if there is one. -/
def patternFor (tags : List (String × Int)) (n : Int) : Pattern :=
  match tags.find? (·.2 == n) with
  | some t => .tag t.1
  | none => .unnamed

theorem mem_enumPatterns_tag_iff : .tag name ∈ enumPatterns tags ↔ ∃ n, (name, n) ∈ tags := by
  simp [enumPatterns]

theorem nodup_enumPatterns_iff : (enumPatterns tags).Nodup ↔ (tags.map (·.1)).Nodup := by
  have htags : (tags.map fun t ↦ Pattern.tag t.1) = (tags.map (·.1)).map .tag := by
    rw [List.map_map]
    rfl
  have hinjective : Function.Injective Pattern.tag := fun _ _ h ↦ Pattern.tag.inj h
  rw [enumPatterns, (List.perm_append_singleton _ _).nodup_iff, List.nodup_cons, htags,
    List.nodup_map_iff hinjective]
  simp

theorem patternFor_mem (tags : List (String × Int)) (n : Int) :
    patternFor tags n ∈ enumPatterns tags := by
  rw [patternFor]
  split
  · next t ht => exact mem_enumPatterns_tag_iff.mpr ⟨t.2, List.mem_of_find?_eq_some ht⟩
  · simp [enumPatterns]

theorem covers_iff (hvalues : (tags.map (·.2)).Nodup) (n : Int) (p : Pattern) :
    p.covers tags n = true ↔ p = patternFor tags n := by
  rw [patternFor]
  cases hfind : tags.find? (·.2 == n) with
  | some t =>
    have ht : t ∈ tags := List.mem_of_find?_eq_some hfind
    obtain rfl : t.2 = n := by simpa using List.find?_some hfind
    cases p with
    | tag name =>
      rw [Pattern.covers, List.contains_iff_mem, Pattern.tag.injEq]
      constructor
      · exact fun hmem ↦ congrArg Prod.fst (List.inj_on_of_nodup_map hvalues hmem ht rfl)
      · rintro rfl
        exact ht
    | unnamed => simpa [Pattern.covers] using ⟨t.1, ht⟩
  | none =>
    have hnone : ∀ name, (name, n) ∉ tags := fun name hmem ↦ by
      simpa using List.find?_eq_none.mp hfind _ hmem
    cases p with
    | tag name => simpa [Pattern.covers] using hnone name
    | unnamed => simpa [Pattern.covers] using hnone

theorem filter_covers (hnames : (tags.map (·.1)).Nodup) (hvalues : (tags.map (·.2)).Nodup)
    (n : Int) : (enumPatterns tags).filter (Pattern.covers tags n) = [patternFor tags n] := by
  have hcovers : ∀ p ∈ enumPatterns tags, p.covers tags n = (p == patternFor tags n) := by
    intro p _
    rw [Bool.eq_iff_iff, covers_iff hvalues, beq_iff_eq]
  rw [List.filter_congr hcovers, List.filter_beq, List.count_eq_one_of_mem
    (nodup_enumPatterns_iff.mpr hnames) (patternFor_mem tags n), List.replicate_one]

/-- Where one member of the joined lists passes a test, one list has such a member. -/
theorem filter_any_eq_of_filter_flatMap {α β : Type} {f : α → List β} {test : β → Bool}
    {l : List α} {b : β} (h : (l.flatMap f).filter test = [b]) :
    ∃ a, l.filter (fun a ↦ (f a).any test) = [a] ∧ b ∈ f a := by
  have hany : ∀ a, (f a).any test = true ↔ (f a).filter test ≠ [] := by
    simp [List.filter_eq_nil_iff]
  induction l with
  | nil => simp at h
  | cons a l ih =>
    rw [List.flatMap_cons, List.filter_append, List.append_eq_singleton_iff] at h
    rcases h with ⟨hnil, hrest⟩ | ⟨hone, hnil⟩
    · have hfails : ¬(f a).any test = true := (hany a).not.mpr (not_not.mpr hnil)
      rw [List.filter_cons, if_neg hfails]
      exact ih hrest
    · have hothers : l.filter (fun a ↦ (f a).any test) = [] := by
        rw [List.filter_eq_nil_iff]
        intro a' ha'
        rw [hany, not_not, List.filter_eq_nil_iff]
        exact fun b hb ↦ List.filter_eq_nil_iff.mp hnil b (List.mem_flatMap.mpr ⟨a', ha', hb⟩)
      have hmem : b ∈ (f a).filter test := hone ▸ List.mem_singleton_self b
      have hpasses : (f a).any test = true := (hany a).mpr (List.ne_nil_of_mem hmem)
      rw [List.filter_cons, if_pos hpasses, hothers]
      exact ⟨a, rfl, (List.mem_filter.mp hmem).1⟩

/-- **Every integer has one arm**, where the patterns of the arms are those of an enum, in any
order and in any arms. -/
theorem exists_filter_applies_eq {as : List Arm}
    (hperm : (as.flatMap (·.patterns)).Perm (enumPatterns tags))
    (hnames : (tags.map (·.1)).Nodup) (hvalues : (tags.map (·.2)).Nodup) (n : Int) :
    ∃ a, as.filter (·.applies tags n) = [a] ∧ patternFor tags n ∈ a.patterns := by
  refine filter_any_eq_of_filter_flatMap (List.perm_singleton.mp ?_)
  exact filter_covers hnames hvalues n ▸ hperm.filter _

end XrBindings.Zig
