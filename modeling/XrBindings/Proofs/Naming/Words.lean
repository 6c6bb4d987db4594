import Mathlib.Data.List.Basic
import XrBindings.Naming.Words
import XrBindings.Text.Cut

/-!
# Words that are found again

Cutting an identifier into words loses nothing but the underscores, and an underscore separates
whatever stands on its two sides. So words that are joined by underscores are found again if each of
them alone is one word, as it is if its letters are all capitals, or none of them but the first is.
Without underscores a word is found again if it has a small letter and no capitals after its first
letter, and the next one begins with a capital.
-/

namespace XrBindings.Naming

open XrBindings.Text

variable {c first : Char} {cs front read rest word : List Char} {words : List (List Char)}

/-! ## Reading one more character -/

/-- The word ended before the last letter that has been read. -/
def turnsBack (read : List Char) (c : Char) : Bool :=
  match read with
  | last :: _ :: _ => isCapital last && isSmall c
  | _ => false

/-- The case of the last letter, after one more character. -/
def caseAfter (small : Bool) (c : Char) : Bool :=
  if isSmall c || isCapital c then isSmall c else small

theorem finishWord_cons (read : List Char) (small : Bool) (c : Char) (rest : List Char) :
    finishWord read small (c :: rest) =
      if c == '_' || (isCapital c && small) then (read.reverse, c :: rest)
      else if turnsBack read c then (read.tail.reverse, read.take 1 ++ c :: rest)
      else finishWord (c :: read) (caseAfter small c) rest := by
  rcases read with _ | ⟨last, _ | ⟨before, earlier⟩⟩ <;> simp [finishWord, turnsBack, caseAfter]

theorem finishWord_nil (read : List Char) (small : Bool) :
    finishWord read small [] = (read.reverse, []) := by
  rw [finishWord]

/-! ## Underscores -/

theorem finishWord_append_underscore (read : List Char) (small : Bool) (cs after : List Char) :
    finishWord read small (cs ++ '_' :: after) =
      ((finishWord read small cs).1, (finishWord read small cs).2 ++ '_' :: after) := by
  induction cs generalizing read small with
  | nil => simp [finishWord_cons, finishWord_nil]
  | cons c cs ih =>
    rw [List.cons_append, finishWord_cons, finishWord_cons, ih]
    split
    · rfl
    · split
      · rw [List.append_assoc, List.cons_append]
      · rfl

theorem underscore_notMem_finishWord (h : '_' ∉ read) (small : Bool) (cs : List Char) :
    '_' ∉ (finishWord read small cs).1 := by
  induction cs generalizing read small with
  | nil => simpa [finishWord_nil] using h
  | cons c cs ih =>
    rw [finishWord_cons]
    split
    · simpa using h
    · next hgo =>
      split
      · simpa using fun hmem ↦ h (List.mem_of_mem_tail hmem)
      · refine ih ?_ _
        simp only [Bool.or_eq_true, beq_iff_eq, not_or] at hgo
        exact List.not_mem_cons_of_ne_of_not_mem (Ne.symm hgo.1) h

@[simp] theorem segment_nil : segment [] = [] := by rw [segment]

@[simp] theorem segment_underscore (cs : List Char) : segment ('_' :: cs) = segment cs := by
  rw [segment, if_pos (beq_self_eq_true _)]

theorem segment_cons (h : c ≠ '_') (cs : List Char) :
    segment (c :: cs) =
      (finishWord [c] (isSmall c) cs).1 :: segment (finishWord [c] (isSmall c) cs).2 := by
  rw [segment, if_neg (by simpa using h)]

/-- **Words split at an underscore.** -/
theorem segment_append_underscore (cs after : List Char) :
    segment (cs ++ '_' :: after) = segment cs ++ segment after := by
  fun_induction segment cs with
  | case1 => simp
  | case2 c rest hc ih =>
    rw [beq_iff_eq.mp hc, List.cons_append, segment_underscore, ih]
  | case3 c rest hc ih =>
    rw [List.cons_append, segment_cons (by simpa using hc), finishWord_append_underscore, ih,
      List.cons_append]

theorem of_mem_segment (h : word ∈ segment cs) : word ≠ [] ∧ '_' ∉ word := by
  fun_induction segment cs with
  | case1 => exact absurd h List.not_mem_nil
  | case2 c rest hc ih => exact ih h
  | case3 c rest hc ih =>
    have hc : '_' ≠ c := Ne.symm (by simpa using hc)
    rcases List.mem_cons.mp h with rfl | h
    · exact ⟨finishWord_ne_nil (List.cons_ne_nil c []) _ _,
        underscore_notMem_finishWord (by simpa using hc) _ _⟩
    · exact ih h

/-- **The words of an identifier are what it holds besides underscores.** -/
theorem flatten_segment (cs : List Char) : (segment cs).flatten = cs.filter (· != '_') := by
  fun_induction segment cs with
  | case1 => rfl
  | case2 c rest hc ih => rw [ih, List.filter_cons_of_neg (by simpa using hc)]
  | case3 c rest hc ih =>
    have hc : '_' ≠ c := Ne.symm (by simpa using hc)
    have hword : '_' ∉ (finishWord [c] (isSmall c) rest).1 :=
      underscore_notMem_finishWord (by simpa using hc) _ _
    have hkept : (finishWord [c] (isSmall c) rest).1.filter (· != '_') =
        (finishWord [c] (isSmall c) rest).1 := by
      rw [List.filter_eq_self]
      intro x hx
      rw [bne_iff_ne]
      rintro rfl
      exact hword hx
    have hsplit := append_finishWord [c] (isSmall c) rest
    rw [List.reverse_singleton, List.singleton_append] at hsplit
    rw [List.flatten_cons, ih, ← hsplit, List.filter_append, hkept]

theorem mem_of_mem_segment (hword : word ∈ segment cs) (hc : c ∈ word) : c ∈ cs := by
  have hmem : c ∈ (segment cs).flatten := List.mem_flatten.mpr ⟨word, hword, hc⟩
  rw [flatten_segment] at hmem
  exact List.mem_of_mem_filter hmem

/-- Words with an underscore after each. -/
theorem segment_flatMap_underscore (h : ∀ word ∈ words, segment word = [word]) :
    segment (words.flatMap (· ++ ['_'])) = words := by
  induction words with
  | nil => simp
  | cons word words ih =>
    rw [List.forall_mem_cons] at h
    rw [List.flatMap_cons, List.append_assoc, List.singleton_append, segment_append_underscore,
      h.1, ih h.2, List.singleton_append]

theorem segment_dropEndWhile_underscore (cs : List Char) :
    segment (dropEndWhile (· == '_') cs) = segment cs := by
  have hreverse : ∀ ds : List Char,
      segment (ds.dropWhile (· == '_')).reverse = segment ds.reverse := by
    intro ds
    induction ds with
    | nil => rfl
    | cons d ds ih =>
      rw [List.dropWhile_cons]
      split
      · next hd =>
        rw [ih, List.reverse_cons, beq_iff_eq.mp hd, segment_append_underscore, segment_nil,
          List.append_nil]
      · rfl
  rw [dropEndWhile, hreverse, List.reverse_reverse]

theorem flatten_intersperse_concat (words : List (List Char)) (word : List Char) :
    ((words ++ [word]).intersperse ['_']).flatten = words.flatMap (· ++ ['_']) ++ word := by
  induction words with
  | nil => simp
  | cons w words ih =>
    have hne : words ++ [word] ≠ [] := by simp
    obtain ⟨w', words', hwords⟩ := List.exists_cons_of_ne_nil hne
    rw [hwords] at ih
    rw [List.cons_append, hwords, List.intersperse_cons_cons, List.flatten_cons,
      List.flatten_cons, ih]
    simp

/-- Words with underscores between them. -/
theorem segment_intersperse (h : ∀ word ∈ words, segment word = [word]) :
    segment ((words.intersperse ['_']).flatten) = words := by
  induction words with
  | nil => simp
  | cons word words ih =>
    rw [List.forall_mem_cons] at h
    rcases words with _ | ⟨word', words⟩
    · simpa using h.1
    · rw [List.intersperse_cons_cons, List.flatten_cons, List.flatten_cons, List.singleton_append,
        segment_append_underscore, h.1, ih h.2, List.singleton_append]

/-! ## Words of one case -/

theorem finishWord_append_of_title (first : Char) (hfront : ∀ x ∈ front, isCapital x = false)
    (hrest : ∀ x ∈ rest, x ≠ '_' ∧ isCapital x = false) (small : Bool) (after : List Char) :
    finishWord (front ++ [first]) small (rest ++ after) =
      finishWord (rest.reverse ++ front ++ [first]) (small || rest.any isSmall) after := by
  induction rest generalizing front small with
  | nil => simp
  | cons x rest ih =>
    rw [List.forall_mem_cons] at hrest
    obtain ⟨⟨hx, hcapital⟩, hrest⟩ := hrest
    have hstop : (x == '_' || (isCapital x && small)) = false := by simp [hx, hcapital]
    have hturn : turnsBack (front ++ [first]) x = false := by
      rcases front with _ | ⟨y, _ | ⟨z, front⟩⟩ <;> simp_all [turnsBack]
    have hcase : caseAfter small x = (small || isSmall x) := by
      cases hsmall : isSmall x <;> simp [caseAfter, hsmall, hcapital]
    rw [List.cons_append, finishWord_cons, hstop, hturn, hcase, if_neg Bool.false_ne_true,
      if_neg Bool.false_ne_true, ← List.cons_append,
      ih (List.forall_mem_cons.mpr ⟨hcapital, hfront⟩) hrest]
    simp [Bool.or_assoc]

theorem finishWord_singleton_append (first : Char)
    (hrest : ∀ x ∈ rest, x ≠ '_' ∧ isCapital x = false) (after : List Char) :
    finishWord [first] (isSmall first) (rest ++ after) =
      finishWord (rest.reverse ++ [first]) (isSmall first || rest.any isSmall) after := by
  have hword := finishWord_append_of_title first (List.forall_mem_nil _) hrest (isSmall first) after
  rwa [List.nil_append, List.append_nil] at hword

theorem finishWord_append_of_capitals (hrest : ∀ x ∈ rest, x ≠ '_' ∧ isSmall x = false)
    (read after : List Char) :
    finishWord read false (rest ++ after) = finishWord (rest.reverse ++ read) false after := by
  induction rest generalizing read with
  | nil => simp
  | cons x rest ih =>
    rw [List.forall_mem_cons] at hrest
    obtain ⟨⟨hx, hsmall⟩, hrest⟩ := hrest
    have hturn : turnsBack read x = false := by
      rcases read with _ | ⟨y, _ | ⟨z, read⟩⟩ <;> simp [turnsBack, hsmall]
    have hcase : caseAfter false x = false := by simp [caseAfter, hsmall]
    rw [List.cons_append, finishWord_cons, hturn, hcase, if_neg (by simp [hx]),
      if_neg Bool.false_ne_true, ih hrest]
    simp

theorem segment_title (hfirst : first ≠ '_') (hrest : ∀ x ∈ rest, x ≠ '_' ∧ isCapital x = false) :
    segment (first :: rest) = [first :: rest] := by
  have hword := finishWord_singleton_append first hrest []
  rw [List.append_nil, finishWord_nil] at hword
  rw [segment_cons hfirst, hword]
  simp

theorem segment_small (hne : word ≠ []) (h : ∀ x ∈ word, x ≠ '_' ∧ isCapital x = false) :
    segment word = [word] := by
  obtain ⟨first, rest, rfl⟩ := List.exists_cons_of_ne_nil hne
  rw [List.forall_mem_cons] at h
  exact segment_title h.1.1 h.2

theorem segment_capitals (hne : word ≠ []) (h : ∀ x ∈ word, x ≠ '_' ∧ isSmall x = false) :
    segment word = [word] := by
  obtain ⟨first, rest, rfl⟩ := List.exists_cons_of_ne_nil hne
  rw [List.forall_mem_cons] at h
  have hword := finishWord_append_of_capitals h.2 [first] []
  rw [List.append_nil, finishWord_nil] at hword
  rw [segment_cons h.1.1, h.1.2, hword]
  simp

/-- A word in a camel style has a small letter and no capitals after its first letter. -/
def IsHump (word : List Char) : Prop :=
  ∃ first rest, word = first :: rest ∧ first ≠ '_' ∧
    (∀ x ∈ rest, x ≠ '_' ∧ isCapital x = false) ∧ rest.any isSmall = true

theorem IsHump.segment_append (h : IsHump word) (hc : isCapital c = true) (after : List Char) :
    segment (word ++ c :: after) = word :: segment (c :: after) := by
  obtain ⟨first, rest, rfl, hfirst, hrest, hsmall⟩ := h
  have hword := finishWord_singleton_append first hrest (c :: after)
  rw [hsmall, Bool.or_true, finishWord_cons, if_pos (by simp [hc])] at hword
  rw [List.cons_append, segment_cons hfirst, hword]
  simp

/-- **Humps are found again** if each but the first begins with a capital. -/
theorem segment_flatten_humps (h : ∀ word ∈ words, IsHump word)
    (hcapital : ∀ word ∈ words.tail, ∃ c rest, word = c :: rest ∧ isCapital c = true) :
    segment words.flatten = words := by
  induction words with
  | nil => simp
  | cons word words ih =>
    rw [List.forall_mem_cons] at h
    have hrest := ih h.2 fun w hw ↦ hcapital w (List.mem_of_mem_tail hw)
    rcases words with _ | ⟨word', words⟩
    · obtain ⟨first, rest, rfl, hfirst, hrest, -⟩ := h.1
      simpa using segment_title hfirst hrest
    · obtain ⟨c, rest, rfl, hc⟩ := hcapital word' List.mem_cons_self
      rw [List.flatten_cons, List.cons_append] at hrest
      rw [List.flatten_cons, List.flatten_cons, List.cons_append, h.1.segment_append hc, hrest]

end XrBindings.Naming
