import Mathlib.Data.List.Nodup
import XrBindings.Command.Signature
import XrBindings.Proofs.Registry.CommandFields

/-!
# Length links

The length of a parameter is read twice: once into its levels of indirection, and once to find the
parameter that holds the element count. Both readings see the same first length, so the outermost
level says what the link is. Links are looked up from both ends, by the name of the array and by
the name of the count. While the names of the parameters differ, the table of links is the list of
the parameters that have one, and each count finds its arrays in the order of declaration.
-/

namespace XrBindings

open XrBindings.Text XrBindings.Xml

variable {c : CommandDecl} {params : List Field} {p q t : Field} {n : String}

/-! ## Links -/

/-- A plain identifier. -/
def IsIdentifier (n : String) : Prop := Zig.isPlainWord n.toList = true

instance (n : String) : Decidable (IsIdentifier n) := inferInstanceAs (Decidable (_ = true))

/-- The registry gives a pointer parameter a length that cannot be followed: it has more parts than
the parameter has levels, or its first part is an identifier but not the name of a parameter, or
the name of a pointer parameter. -/
def AmbiguousLength (params : List Field) (p : Field) : Prop :=
  p.pointers ≠ [] ∧ ∃ text, p.length = some text ∧ text ≠ "" ∧
    (p.pointers.length < (commaList text).length ∨
      ∃ head, (commaList text).head? = some head ∧ IsIdentifier head ∧
        ((∀ t ∈ params, t.name ≠ head) ∨ ∃ t ∈ params, t.name = head ∧ t.pointers ≠ []))

/-- A parameter of this name holds a plain count. -/
def HoldsCount (params : List Field) (n : String) : Prop :=
  ∃ t ∈ params, t.name = n ∧ t.pointers = []

/-- The identifier that the length of a pointer begins with. -/
def Field.lengthName? (p : Field) : Option String :=
  if p.pointers.isEmpty then none
  else (Declarator.listAttribute p.length).head?.filter fun head ↦ Zig.isPlainWord head.toList

theorem Field.lengthName?_eq_some_iff :
    p.lengthName? = some n ↔ p.pointers ≠ [] ∧
      (Declarator.listAttribute p.length).head? = some n ∧ IsIdentifier n := by
  rw [Field.lengthName?]
  by_cases hpointers : p.pointers = [] <;> simp [hpointers, IsIdentifier]

theorem commaList_ne_nil (text : String) : commaList text ≠ [] := by
  simp [commaList, splitAtChar]

theorem listAttribute_eq_cons_iff {value : Option String} {head : String} {rest : List String} :
    Declarator.listAttribute value = head :: rest
      ↔ ∃ text, value = some text ∧ text ≠ "" ∧ commaList text = head :: rest := by
  cases value with
  | none => simp [Declarator.listAttribute]
  | some text => by_cases htext : text = "" <;> simp [Declarator.listAttribute, htext]

theorem Field.Declared.lengthName?_eq_some_iff (hp : p.Declared) :
    p.lengthName? = some n ↔ (∃ level, p.pointers.head? = some level ∧
      level.multiplicity = .lengthLinked ∧ level.length = some n) ∧ IsIdentifier n := by
  obtain ⟨constness, optional, hpointers⟩ := hp.pointers_eq
  obtain ⟨innermost, nullable, hhead⟩ :=
    Declarator.head?_pointerInfos p.typeName constness p.length optional
  rw [← hpointers] at hhead
  rw [Field.lengthName?_eq_some_iff, hhead]
  cases constness with
  | nil =>
    have hnil : p.pointers = [] := List.head?_eq_none_iff.mp hhead
    simp [hnil]
  | cons constant constness =>
    have hne : p.pointers ≠ [] := by
      rintro hnil
      simp [hnil] at hhead
    simp only [List.head?_cons, Option.map_some, Option.some.injEq, exists_eq_left',
      Declarator.pointerLevel_lengthLinked_iff]
    constructor
    · rintro ⟨-, hlength, hword⟩
      -- What is a length but links to nothing is no identifier.
      refine ⟨⟨hlength, ?_, ?_⟩, hword⟩
      · rintro rfl
        exact absurd hword (by decide)
      · rintro rfl
        exact absurd hword (by decide)
    · rintro ⟨⟨hlength, -, -⟩, hword⟩
      exact ⟨hne, hlength, hword⟩

/-- Of parameters whose names differ, one is found by its name from either end. -/
theorem find?_reverse_name (hd : (params.map (·.name)).Nodup) (ht : t ∈ params) :
    params.reverse.find? (·.name == t.name) = some t := by
  cases hfind : params.reverse.find? (·.name == t.name) with
  | none => exact absurd (List.find?_eq_none.mp hfind t (List.mem_reverse.mpr ht)) (by simp)
  | some t' =>
    have hmem := List.mem_reverse.mp (List.mem_of_find?_eq_some hfind)
    have hname : t'.name = t.name := by simpa using List.find?_some hfind
    rw [List.inj_on_of_nodup_map hd hmem ht hname]

theorem not_holdsCount_iff (hd : (params.map (·.name)).Nodup) :
    ¬HoldsCount params n ↔
      (∀ t ∈ params, t.name ≠ n) ∨ ∃ t ∈ params, t.name = n ∧ t.pointers ≠ [] := by
  constructor
  · intro hnone
    by_cases hexists : ∃ t ∈ params, t.name = n
    · obtain ⟨t, ht, hname⟩ := hexists
      exact Or.inr ⟨t, ht, hname, fun hpointers ↦ hnone ⟨t, ht, hname, hpointers⟩⟩
    · exact Or.inl fun t ht hname ↦ hexists ⟨t, ht, hname⟩
  · rintro (hnone | ⟨t, ht, hname, hpointers⟩) ⟨t', ht', hname', hpointers'⟩
    · exact hnone t' ht' hname'
    · obtain rfl := List.inj_on_of_nodup_map hd ht ht' (hname.trans hname'.symm)
      exact hpointers hpointers'

theorem ambiguousLength_iff (hd : (params.map (·.name)).Nodup) :
    AmbiguousLength params p ↔
      p.pointers ≠ [] ∧ p.pointers.length < (Declarator.listAttribute p.length).length ∨
        ∃ n, p.lengthName? = some n ∧ ¬HoldsCount params n := by
  simp only [AmbiguousLength, ← not_holdsCount_iff hd, Field.lengthName?_eq_some_iff]
  cases hlist : Declarator.listAttribute p.length with
  | nil =>
    simp only [List.length_nil, Nat.not_lt_zero, and_false, List.head?_nil, reduceCtorEq,
      false_and, exists_const, or_self, iff_false]
    -- A text that is not empty has parts, though they may be empty.
    rintro ⟨-, text, htext, hne, -⟩
    obtain ⟨head, rest, hparts⟩ := List.exists_cons_of_ne_nil (commaList_ne_nil text)
    rw [listAttribute_eq_cons_iff.mpr ⟨text, htext, hne, hparts⟩] at hlist
    exact absurd hlist (by simp)
  | cons head rest =>
    obtain ⟨text, htext, hne, hparts⟩ := listAttribute_eq_cons_iff.mp hlist
    simp only [htext, Option.some.injEq, exists_eq_left', hne, ne_eq, not_false_eq_true, true_and,
      hparts]
    constructor
    · rintro ⟨hpointers, hmany | ⟨n, hhead, hword, hcount⟩⟩
      · exact Or.inl ⟨hpointers, hmany⟩
      · exact Or.inr ⟨n, ⟨hpointers, hhead, hword⟩, hcount⟩
    · rintro (⟨hpointers, hmany⟩ | ⟨n, ⟨hpointers, hhead, hword⟩, hcount⟩)
      · exact ⟨hpointers, Or.inl hmany⟩
      · exact ⟨hpointers, Or.inr ⟨n, hhead, hword, hcount⟩⟩

/-- A link is the identifier that the length begins with, if the name holds a count. -/
theorem lengthLink_eq_of_length_le (command : String)
    (hfew : (Declarator.listAttribute p.length).length ≤ p.pointers.length) :
    lengthLink command p params = match p.lengthName? with
      | none => .ok none
      | some n => match params.reverse.find? (·.name == n) with
        | none => reject (.unknownLength command p.name n)
        | some t =>
          if t.pointers.isEmpty then .ok (some n)
          else reject (.pointerLength command p.name n) := by
  rw [lengthLink, Field.lengthName?]
  cases hlist : Declarator.listAttribute p.length with
  | nil => simp
  | cons head rest =>
    rw [hlist, List.length_cons] at hfew
    have hpointers : p.pointers ≠ [] := by
      rintro hnil
      simp [hnil] at hfew
    simp only [List.isEmpty_iff, hpointers, if_false, gt_iff_lt, Nat.not_lt.mpr hfew,
      List.head?_cons, Option.filter_some]
    by_cases hword : IsIdentifier head
    · -- The two words that stand for no parameter are no identifiers.
      have hzero : head ≠ "null-terminated" := fun heq ↦ absurd (heq ▸ hword) (by decide)
      have hone : head ≠ "1" := fun heq ↦ absurd (heq ▸ hword) (by decide)
      rw [IsIdentifier] at hword
      cases hfind : params.reverse.find? (·.name == head) <;> simp [hzero, hone, hword, hfind]
    · rw [IsIdentifier, Bool.not_eq_true] at hword
      simp [hword]

theorem lengthLink_eq_error (command : String) (hd : (params.map (·.name)).Nodup)
    (h : AmbiguousLength params p) :
    ∃ error, lengthLink command p params = .error (.rejected error) ∧
      error.code = .ambiguousLengthLink := by
  by_cases hmany : p.pointers ≠ [] ∧ p.pointers.length < (Declarator.listAttribute p.length).length
  · obtain ⟨hpointers, hmany⟩ := hmany
    obtain ⟨head, rest, hlist⟩ := List.exists_cons_of_length_pos (Nat.zero_lt_of_lt hmany)
    rw [hlist, List.length_cons] at hmany
    rw [lengthLink, hlist]
    simp only [List.isEmpty_iff, hpointers, if_false]
    exact ⟨_, if_pos hmany, rfl⟩
  · rw [ambiguousLength_iff hd, or_iff_right hmany] at h
    obtain ⟨n, hn, hcount⟩ := h
    have hpointers := (Field.lengthName?_eq_some_iff.mp hn).1
    rw [lengthLink_eq_of_length_le command (Nat.not_lt.mp fun hlt ↦ hmany ⟨hpointers, hlt⟩), hn]
    obtain hnone | ⟨t, ht, rfl, htp⟩ := (not_holdsCount_iff hd).mp hcount
    · have hfind : params.reverse.find? (·.name == n) = none :=
        List.find?_eq_none.mpr fun t ht ↦ by simpa using hnone t (List.mem_reverse.mp ht)
      simp only [hfind]
      exact ⟨_, rfl, rfl⟩
    · simp only [find?_reverse_name hd ht]
      exact ⟨_, if_neg (by simpa using htp), rfl⟩

theorem lengthLink_eq_ok (command : String) (hd : (params.map (·.name)).Nodup)
    (h : ¬AmbiguousLength params p) : lengthLink command p params = .ok p.lengthName? := by
  rw [ambiguousLength_iff hd, not_or] at h
  obtain ⟨hfew, hcount⟩ := h
  by_cases hpointers : p.pointers = []
  · have hnone : p.lengthName? = none := by simp [Field.lengthName?, hpointers]
    rw [hnone, lengthLink]
    split
    · rfl
    · simp [hpointers]
  · rw [lengthLink_eq_of_length_le command (Nat.not_lt.mp fun hlt ↦ hfew ⟨hpointers, hlt⟩)]
    cases hn : p.lengthName? with
    | none => rfl
    | some n =>
      obtain ⟨t, ht, rfl, htp⟩ := not_not.mp fun hnone ↦ hcount ⟨n, hn, hnone⟩
      simp [find?_reverse_name hd ht, htp]

theorem holdsCount_of_lengthName? (hd : (params.map (·.name)).Nodup)
    (h : ¬AmbiguousLength params p) (hn : p.lengthName? = some n) : HoldsCount params n := by
  rw [ambiguousLength_iff hd, not_or] at h
  exact not_not.mp fun hnone ↦ h.2 ⟨n, hn, hnone⟩

end XrBindings
