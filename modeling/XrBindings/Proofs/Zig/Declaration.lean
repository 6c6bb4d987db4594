import XrBindings.Proofs.Zig.Identifier

/-!
# Declarations read back from their lines

A public declaration of the file begins at the margin with `pub const` or `pub fn`, and goes on with
its name. An escaped name may hold spaces and brackets, so the name is read with an eye on quotes
and backslashes. Whatever the bindings write as a name can be read back in front of anything that
follows it, and lines that do not begin at the margin declare nothing in the file.
-/

namespace XrBindings.Zig

/-! ## Names in front of other text -/

/-- Put text in front of the first of two parts. -/
def inFront (front : List Char) (parts : List Char × List Char) : List Char × List Char :=
  (front ++ parts.1, parts.2)

/-- Cut a text at the first space or bracket that does not stand between quotes. -/
def cutName : Bool → List Char → List Char × List Char
  | _, [] => ([], [])
  | true, '\\' :: c :: cs => inFront ['\\', c] (cutName true cs)
  | quoted, c :: cs =>
    if !quoted && (c == ' ' || c == '(') then ([], c :: cs)
    else inFront [c] (cutName (quoted != (c == '"')) cs)

variable {c : Char} {name line rest : String}

theorem inFront_inFront (front front' : List Char) (parts : List Char × List Char) :
    inFront front (inFront front' parts) = inFront (front ++ front') parts := by
  simp [inFront]

theorem cutName_escape (c : Char) (cs : List Char) :
    cutName true ('\\' :: c :: cs) = inFront ['\\', c] (cutName true cs) := by rw [cutName]

theorem cutName_quote (quoted : Bool) (cs : List Char) :
    cutName quoted ('"' :: cs) = inFront ['"'] (cutName (!quoted) cs) := by
  cases quoted with
  | false => rfl
  | true => rw [cutName] <;> simp

/-- Between quotes most characters stand for themselves. -/
theorem cutName_of_quoted (hquote : c ≠ '"') (hbackslash : c ≠ '\\') (cs : List Char) :
    cutName true (c :: cs) = inFront [c] (cutName true cs) := by
  have hfalse : (c == '"') = false := beq_false_of_ne hquote
  rw [cutName]
  · rw [hfalse]
    rfl
  · intro _ _ _ h
    exact absurd h hbackslash

theorem cutName_of_plain (hspace : c ≠ ' ') (hbracket : c ≠ '(') (hquote : c ≠ '"')
    (cs : List Char) : cutName false (c :: cs) = inFront [c] (cutName false cs) := by
  have hfalse : (c == '"') = false := beq_false_of_ne hquote
  rw [cutName]
  · rw [hfalse, if_neg (by simp [hspace, hbracket])]
    rfl
  · simp

theorem cutName_of_stop (h : c = ' ' ∨ c = '(') (cs : List Char) :
    cutName false (c :: cs) = ([], c :: cs) := by
  rw [cutName]
  · obtain rfl | rfl := h <;> rfl
  · simp

/-! ## Texts that are read as names -/

/-- The text belongs to the name, whatever follows it. -/
def IsName (s : String) : Prop :=
  ∀ cs, cutName false (s.toList ++ cs) = inFront s.toList (cutName false cs)

theorem IsName.append {s t : String} (hs : IsName s) (ht : IsName t) : IsName (s ++ t) := by
  intro cs
  rw [String.toList_append, List.append_assoc, hs, ht, inFront_inFront]

theorem isName_of_forall (h : ∀ c ∈ name.toList, c.isAlphanum = true ∨ c = '_') : IsName name := by
  intro cs
  generalize name.toList = chars at h
  induction chars with
  | nil => rfl
  | cons c chars ih =>
    rw [List.forall_mem_cons] at h
    have hc : c ≠ ' ' ∧ c ≠ '(' ∧ c ≠ '"' := by
      refine ⟨?_, ?_, ?_⟩ <;> rintro rfl <;> exact absurd h.1 (by decide)
    rw [List.cons_append, cutName_of_plain hc.1 hc.2.1 hc.2.2, ih h.2, inFront_inFront,
      List.singleton_append]

theorem cutName_hexByte (b : UInt8) (cs : List Char) :
    cutName true (hexByte b ++ cs) = inFront (hexByte b) (cutName true cs) := by
  have hdigit : ∀ n : Fin 16, Nat.digitChar n ≠ '"' ∧ Nat.digitChar n ≠ '\\' := by decide
  have hlt : b.toNat < 256 := b.toNat_lt
  obtain ⟨hhigh, hhigh'⟩ := hdigit ⟨b.toNat / 16, by omega⟩
  obtain ⟨hlow, hlow'⟩ := hdigit ⟨b.toNat % 16, by omega⟩
  rw [hexByte, List.cons_append, List.cons_append, List.nil_append, cutName_of_quoted hhigh hhigh',
    cutName_of_quoted hlow hlow', inFront_inFront, List.singleton_append]

theorem cutName_hexBytes (bytes : List UInt8) (cs : List Char) :
    cutName true ((bytes.flatMap fun b ↦ '\\' :: 'x' :: hexByte b) ++ cs) =
      inFront (bytes.flatMap fun b ↦ '\\' :: 'x' :: hexByte b) (cutName true cs) := by
  induction bytes with
  | nil => rfl
  | cons b bytes ih =>
    rw [List.flatMap_cons, List.append_assoc, List.cons_append, List.cons_append, cutName_escape,
      cutName_hexByte, ih, inFront_inFront, inFront_inFront]
    rfl

theorem cutName_quotedChar (c : Char) (cs : List Char) :
    cutName true (quotedChar c ++ cs) = inFront (quotedChar c) (cutName true cs) := by
  rw [quotedChar]
  split
  · exact cutName_escape c cs
  · next hplain =>
    obtain ⟨hquote, hbackslash⟩ : c ≠ '"' ∧ c ≠ '\\' := by simpa using hplain
    split
    · exact cutName_of_quoted hquote hbackslash cs
    · exact cutName_hexBytes _ cs

theorem cutName_flatMap_quotedChar (ds cs : List Char) :
    cutName true (ds.flatMap quotedChar ++ cs) =
      inFront (ds.flatMap quotedChar) (cutName true cs) := by
  induction ds with
  | nil => rfl
  | cons d ds ih =>
    rw [List.flatMap_cons, List.append_assoc, cutName_quotedChar, ih, inFront_inFront]

theorem isName_quoteIdentifier (name : String) : IsName (quoteIdentifier name) := by
  intro cs
  rw [toList_quoteIdentifier, List.cons_append, List.cons_append, List.append_assoc,
    cutName_of_plain (by decide) (by decide) (by decide), cutName_quote, Bool.not_false,
    cutName_flatMap_quotedChar, List.singleton_append, cutName_quote, Bool.not_true,
    inFront_inFront, inFront_inFront, inFront_inFront]
  rfl

theorem isName_of_isPlainWord (h : isPlainWord name.toList = true) : IsName name :=
  isName_of_forall (isAlphanum_of_isPlainWord h)

/-- **Every identifier that is written is read as a name.** -/
theorem isName_writeIdentifier (name : String) : IsName (writeIdentifier name) := by
  rcases writeIdentifier_cases name with ⟨hname, hplain⟩ | hname
  · exact hname.symm ▸ isName_of_isPlainWord hplain
  · exact hname.symm ▸ isName_quoteIdentifier name

/-! ## Lines -/

/-- What a line declares in the file: the name, and the text behind it. -/
def declaration? (line : String) : Option (String × String) :=
  ((line.toList.dropPrefix? "pub const ".toList).or
    (line.toList.dropPrefix? "pub fn ".toList)).map fun cs ↦
      Prod.map String.ofList String.ofList (cutName false cs)

/-- The text cannot belong to a name before it. -/
def EndsName (rest : String) : Prop :=
  rest.toList.head? = some ' ' ∨ rest.toList.head? = some '('

theorem cutName_of_endsName (hname : IsName name) (hrest : EndsName rest) :
    cutName false (name ++ rest).toList = (name.toList, rest.toList) := by
  obtain ⟨c, cs, hcs, hc⟩ : ∃ c cs, rest.toList = c :: cs ∧ (c = ' ' ∨ c = '(') := by
    obtain h | h := hrest
    · obtain ⟨cs, hcs⟩ := List.head?_eq_some_iff.mp h
      exact ⟨' ', cs, hcs, Or.inl rfl⟩
    · obtain ⟨cs, hcs⟩ := List.head?_eq_some_iff.mp h
      exact ⟨'(', cs, hcs, Or.inr rfl⟩
  rw [String.toList_append, hname, hcs, cutName_of_stop hc, inFront, List.append_nil]

theorem declaration?_const (hname : IsName name) (hrest : EndsName rest) :
    declaration? ("pub const " ++ name ++ rest) = some (name, rest) := by
  have hdrop : ("pub const " ++ name ++ rest).toList.dropPrefix? "pub const ".toList =
      some (name ++ rest).toList := by
    rw [String.append_assoc, String.toList_append]
    simp [List.dropPrefix?]
  rw [declaration?, hdrop, Option.some_or, Option.map_some, cutName_of_endsName hname hrest]
  simp

theorem declaration?_fn (hname : IsName name) (hrest : EndsName rest) :
    declaration? ("pub fn " ++ name ++ rest) = some (name, rest) := by
  have hdrop : ("pub fn " ++ name ++ rest).toList.dropPrefix? "pub fn ".toList =
      some (name ++ rest).toList := by
    rw [String.append_assoc, String.toList_append]
    simp [List.dropPrefix?]
  have hconst : ("pub fn " ++ name ++ rest).toList.dropPrefix? "pub const ".toList = none := by
    simp [List.dropPrefix?]
  rw [declaration?, hdrop, hconst, Option.none_or, Option.map_some,
    cutName_of_endsName hname hrest]
  simp

/-- The line does not begin at the margin as declarations do. -/
def IsInner (line : String) : Prop := line.toList.head? ≠ some 'p'

theorem isInner_ofList {cs : List Char} (h : cs.head? ≠ some 'p') :
    IsInner (String.ofList cs) := by rwa [IsInner, String.toList_ofList]

/-- Only the beginning of a line matters. -/
theorem isInner_append (h : name ≠ "") : IsInner (name ++ rest) ↔ IsInner name := by
  rw [IsInner, IsInner, String.toList_append, List.head?_append_of_ne_nil]
  exact fun hnil ↦ h (String.toList_eq_nil_iff.mp hnil)

theorem declaration?_of_isInner (h : IsInner line) : declaration? line = none := by
  rw [declaration?]
  cases hchars : line.toList with
  | nil => rfl
  | cons c cs =>
    have hc : c ≠ 'p' := by simpa [IsInner, hchars] using h
    simp [List.dropPrefix?, hc]

/-- What lines declare in the file, in their order. -/
def declarations (lines : List String) : List (String × String) := lines.filterMap declaration?

variable {lines : List String}

theorem declarations_append (lines lines' : List String) :
    declarations (lines ++ lines') = declarations lines ++ declarations lines' :=
  List.filterMap_append

theorem declarations_of_isInner (h : ∀ line ∈ lines, IsInner line) : declarations lines = [] :=
  List.filterMap_eq_nil_iff.mpr fun line hline ↦ declaration?_of_isInner (h line hline)

theorem declarations_cons {e : String × String} (hline : declaration? line = some e)
    (hlines : ∀ line ∈ lines, IsInner line) : declarations (line :: lines) = [e] := by
  rw [declarations, List.filterMap_cons_some hline]
  exact congrArg (e :: ·) (declarations_of_isInner hlines)

end XrBindings.Zig
