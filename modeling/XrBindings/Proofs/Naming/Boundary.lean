import XrBindings.Proofs.Naming.LetterCase
import XrBindings.Proofs.Naming.Words

/-!
# Where words begin

The words of an identifier can be told without scanning it. Underscores cut it into runs. Inside a
run a word begins at each capital that has a small letter as the last letter before it, or as the
next character. This rule looks at one position of the run at a time, and does not ask where the
words before have ended.

The scan itself looks back. It finds that a word began at a capital only when it has read the small
letter behind it, and then it returns by one character. Read with the next character in view, it
never has to return, and stops where the rule says. It starts to keep the case of letters anew with
each word. This makes no difference, because every word of a run but the first begins with a
capital, which is the last letter from there on.
-/

namespace XrBindings.Naming

/-! ## Cutting a list at given positions -/

section

variable {α : Type*}

/-- Cut a list before each position, the first one apart, at which there is a boundary. -/
def cutBefore (boundary : ℕ → Bool) : List α → List (List α)
  | [] => []
  | [x] => [[x]]
  | x :: y :: rest =>
    if boundary 1 then [x] :: cutBefore (fun p ↦ boundary (p + 1)) (y :: rest)
    else (cutBefore (fun p ↦ boundary (p + 1)) (y :: rest)).modifyHead (x :: ·)

/-- The positions at which the pieces of a list start. -/
def starts : List (List α) → List ℕ
  | [] => []
  | piece :: pieces => 0 :: (starts pieces).map (piece.length + ·)

theorem cutBefore_cons_ne_nil (boundary : ℕ → Bool) (x : α) (xs : List α) :
    cutBefore boundary (x :: xs) ≠ [] := by
  induction xs generalizing boundary x with
  | nil => exact List.cons_ne_nil [x] []
  | cons y rest ih =>
    rw [cutBefore]
    split
    · exact List.cons_ne_nil _ _
    · simpa using ih _ y

theorem flatten_cutBefore (boundary : ℕ → Bool) (xs : List α) :
    (cutBefore boundary xs).flatten = xs := by
  fun_induction cutBefore boundary xs with
  | case1 => rfl
  | case2 => rfl
  | case3 boundary x y rest h ih => rw [List.flatten_cons, ih, List.singleton_append]
  | case4 boundary x y rest h ih =>
    obtain ⟨piece, pieces, hpieces⟩ :=
      List.exists_cons_of_ne_nil (cutBefore_cons_ne_nil (fun p ↦ boundary (p + 1)) y rest)
    rw [hpieces] at ih ⊢
    rw [List.modifyHead_cons, List.flatten_cons, List.cons_append, ← List.flatten_cons, ih]

theorem filter_range_succ (q : ℕ → Bool) (n : ℕ) :
    (List.range (n + 1)).filter q =
      (if q 0 then [0] else []) ++ ((List.range n).filter fun p ↦ q (p + 1)).map (1 + ·) := by
  rw [List.range_succ_eq_map, List.filter_cons, List.filter_map]
  simp only [Function.comp_def, Nat.succ_eq_add_one, Nat.add_comm 1]
  split <;> rfl

theorem filter_starts_succ (boundary : ℕ → Bool) (n : ℕ) :
    ((List.range (n + 1)).filter fun p ↦ p == 0 || boundary p) =
      0 :: ((List.range n).filter fun p ↦ boundary (p + 1)).map (1 + ·) :=
  filter_range_succ _ n

/-- **The pieces start at the boundaries**, the first one at the beginning. -/
theorem starts_cutBefore (boundary : ℕ → Bool) (xs : List α) :
    starts (cutBefore boundary xs) =
      (List.range xs.length).filter fun p ↦ p == 0 || boundary p := by
  fun_induction cutBefore boundary xs with
  | case1 => rfl
  | case2 => rfl
  | case3 boundary x y rest h ih =>
    have hfirst : ∀ p, (p == 0 || boundary (p + 1)) = boundary (p + 1) := by
      rintro (_ | p)
      · exact h.symm
      · rfl
    simp only [hfirst] at ih
    rw [starts, ih]
    exact (filter_starts_succ boundary (y :: rest).length).symm
  | case4 boundary x y rest h ih =>
    obtain ⟨piece, pieces, hpieces⟩ :=
      List.exists_cons_of_ne_nil (cutBefore_cons_ne_nil (fun p ↦ boundary (p + 1)) y rest)
    rw [hpieces, starts, List.length_cons, filter_starts_succ] at ih
    have htail : (starts pieces).map (piece.length + ·) =
        ((List.range rest.length).filter fun p ↦ boundary (p + 1 + 1)).map (1 + ·) :=
      List.cons_injective ih
    -- The first element has no boundary behind it, so it moves all starts but the first.
    have hmoved : ((List.range (y :: rest).length).filter fun p ↦ boundary (p + 1)) =
        (starts pieces).map (piece.length + ·) := by
      rw [htail, List.length_cons, filter_range_succ, if_neg h, List.nil_append]
    have hlength : (x :: y :: rest).length = (y :: rest).length + 1 := rfl
    rw [hpieces, List.modifyHead_cons, starts, hlength, filter_starts_succ, hmoved, List.map_map]
    simp only [Function.comp_def, List.length_cons, Nat.add_comm 1, Nat.add_right_comm]

end

/-! ## The rule -/

/-- The last letter of a text is a small one. -/
def endsSmall (cs : List Char) : Bool := (cs.reverse.find? Char.isAlpha).any isSmall

/-- A word begins at a position inside a run: a capital is there, and a small letter is the last
letter before it or comes right after it. -/
def beginsWord (run : List Char) (p : ℕ) : Bool :=
  run[p]?.any isCapital && (endsSmall (run.take p) || run[p + 1]?.any isSmall)

/-- The words of a run. -/
def runWords (run : List Char) : List (List Char) := cutBefore (beginsWord run) run

variable {c d : Char} {before cs read rest : List Char}

/-! ## The rule, one character at a time -/

theorem endsSmall_concat (front : List Char) (c : Char) :
    endsSmall (front ++ [c]) = caseAfter (endsSmall front) c := by
  have halpha : c.isAlpha = (isSmall c || isCapital c) := by
    rw [Bool.eq_iff_iff, isAlpha_iff, Bool.or_eq_true, or_comm]
  rw [endsSmall, List.reverse_append, List.reverse_singleton, List.singleton_append,
    List.find?_cons, halpha, caseAfter]
  cases isSmall c || isCapital c <;> rfl

theorem beginsWord_append (front : List Char) (c : Char) (rest : List Char) :
    beginsWord (front ++ c :: rest) front.length =
      (isCapital c && (endsSmall front || rest.head?.any isSmall)) := by
  have hnext : (front ++ c :: rest)[front.length + 1]? = rest.head? := by
    simp [List.getElem?_append_right, List.head?_eq_getElem?]
  simp [beginsWord, hnext]

/-- The words of what is left of a run, after a part of it. -/
def wordsAfter (before cs : List Char) : List (List Char) :=
  cutBefore (fun p ↦ beginsWord (before ++ cs) (before.length + p)) cs

theorem wordsAfter_nil_left (run : List Char) : wordsAfter [] run = runWords run := by
  simp [wordsAfter, runWords]

theorem wordsAfter_cons_cons (before : List Char) (c d : Char) (rest : List Char) :
    wordsAfter before (c :: d :: rest) =
      if isCapital d && (endsSmall (before ++ [c]) || rest.head?.any isSmall) then
        [c] :: wordsAfter (before ++ [c]) (d :: rest)
      else (wordsAfter (before ++ [c]) (d :: rest)).modifyHead (c :: ·) := by
  have hrun : before ++ c :: d :: rest = before ++ [c] ++ d :: rest := by simp
  have hnext : beginsWord (before ++ c :: d :: rest) (before.length + 1) =
      (isCapital d && (endsSmall (before ++ [c]) || rest.head?.any isSmall)) := by
    rw [hrun, ← beginsWord_append]
    simp
  have hrest : cutBefore (fun p ↦ beginsWord (before ++ c :: d :: rest) (before.length + (p + 1)))
      (d :: rest) = wordsAfter (before ++ [c]) (d :: rest) := by
    rw [wordsAfter, hrun, List.length_append, List.length_singleton]
    simp only [Nat.add_assoc, Nat.add_comm 1]
  rw [wordsAfter, cutBefore, hrest, hnext]

/-! ## The scan, with the next character in view -/

theorem turnsBack_cons (hread : read ≠ []) (c d : Char) :
    turnsBack (c :: read) d = (isCapital c && isSmall d) := by
  obtain ⟨before, earlier, rfl⟩ := List.exists_cons_of_ne_nil hread
  rfl

/-- A small letter behind a capital sends the scan back by one character. -/
theorem finishWord_of_turnsBack (hread : read ≠ []) (hc : isCapital c = true)
    (hd : isSmall d = true) (small : Bool) (rest : List Char) :
    finishWord (c :: read) small (d :: rest) = (read.reverse, c :: d :: rest) := by
  have hne : d ≠ '_' := by
    rintro rfl
    exact absurd hd (by decide)
  have hstop : (d == '_' || (isCapital d && small)) = false := by
    rw [isCapital_eq_false_of_isSmall hd, Bool.false_and, Bool.or_false, beq_false_of_ne hne]
  have hturn : turnsBack (c :: read) d = true := by
    rw [turnsBack_cons hread, hc, hd, Bool.and_self]
  rw [finishWord_cons, hstop, hturn]
  rfl

/-- Where the scan does not turn back at once, it stops before the capital at which the next word
begins, and reads any other character. -/
theorem finishWord_of_not_turnsBack (hread : read ≠ []) (hc : c ≠ '_')
    (hturn : turnsBack read c = false) (small : Bool) (rest : List Char) :
    finishWord read small (c :: rest) =
      if isCapital c && (small || rest.head?.any isSmall) then (read.reverse, c :: rest)
      else finishWord (c :: read) (caseAfter small c) rest := by
  rw [finishWord_cons, hturn, if_neg Bool.false_ne_true, beq_false_of_ne hc, Bool.false_or]
  cases hcapital : isCapital c with
  | false => rfl
  | true =>
    cases small with
    | true => rfl
    | false =>
      -- It reads on, and turns back at the next character if this is a small letter.
      rw [Bool.true_and, Bool.true_and, Bool.false_or, if_neg Bool.false_ne_true]
      split
      · next hnext =>
        obtain ⟨d, hhead, hsmall⟩ := (Option.any_eq_true ..).mp hnext
        obtain ⟨after, rfl⟩ := List.head?_eq_some_iff.mp hhead
        exact finishWord_of_turnsBack hread hcapital hsmall _ after
      · rfl

/-- What the scan reads of the word that has begun is the first word of what is left. -/
theorem exists_finishWord_eq (hread : read ≠ []) (hrest : '_' ∉ rest)
    (hturn : ∀ d ∈ rest.head?, turnsBack read d = false) (before : List Char) (c : Char) :
    ∃ word after, finishWord read (endsSmall (before ++ [c])) rest = (read.reverse ++ word, after) ∧
      rest = word ++ after ∧ (∀ d ∈ after.head?, isCapital d = true) ∧
      wordsAfter before (c :: rest) = (c :: word) :: wordsAfter (before ++ c :: word) after := by
  induction rest generalizing read before c with
  | nil => exact ⟨[], [], by simp [finishWord_nil], rfl, by simp, rfl⟩
  | cons d rest ih =>
    obtain ⟨hd, hrest⟩ : '_' ≠ d ∧ '_' ∉ rest := by simpa using hrest
    rw [finishWord_of_not_turnsBack hread (Ne.symm hd) (hturn d rfl), wordsAfter_cons_cons,
      ← endsSmall_concat]
    split
    · next hstop =>
      rw [Bool.and_eq_true] at hstop
      exact ⟨[], d :: rest, by simp, rfl, by simpa using hstop.1, rfl⟩
    · next hgo =>
      -- If it turned back behind this character, the character would begin a word.
      have hturn' : ∀ e ∈ rest.head?, turnsBack (d :: read) e = false := by
        intro e he
        rw [Option.mem_def.mp he, Option.any_some, Bool.and_eq_true, Bool.or_eq_true, not_and,
          not_or] at hgo
        rw [turnsBack_cons hread, Bool.and_eq_false_imp]
        exact fun hcapital ↦ Bool.eq_false_iff.mpr (hgo hcapital).2
      obtain ⟨word, after, hfinish, hsplit, hafter, hwords⟩ :=
        ih (List.cons_ne_nil d read) hrest hturn' (before ++ [c]) d
      refine ⟨d :: word, after, ?_, ?_, hafter, ?_⟩
      · rw [hfinish]
        simp
      · rw [hsplit, List.cons_append]
      · rw [hwords]
        simp

/-! ## Words of a run, and of an identifier -/

/-- The scan may begin anew at a capital: the case of what stands before does not matter there. -/
theorem segment_eq_wordsAfter (hcs : '_' ∉ cs)
    (hbefore : before = [] ∨ ∀ c ∈ cs.head?, isCapital c = true) :
    segment cs = wordsAfter before cs := by
  fun_induction segment cs generalizing before with
  | case1 => rfl
  | case2 c rest hc ih => exact absurd List.mem_cons_self (beq_iff_eq.mp hc ▸ hcs)
  | case3 c rest hc ih =>
    have hrest : '_' ∉ rest := fun hmem ↦ hcs (List.mem_cons_of_mem c hmem)
    have hsmall : isSmall c = endsSmall (before ++ [c]) := by
      rw [endsSmall_concat, caseAfter]
      split
      · rfl
      · next hletter =>
        rw [Bool.or_eq_true, not_or] at hletter
        obtain rfl := hbefore.resolve_right fun hcapital ↦ hletter.2 (hcapital c rfl)
        exact Bool.eq_false_iff.mpr hletter.1
    have hturn : ∀ d ∈ rest.head?, turnsBack [c] d = false := fun _ _ ↦ rfl
    obtain ⟨word, after, hfinish, hsplit, hafter, hwords⟩ :=
      exists_finishWord_eq (List.cons_ne_nil c []) hrest hturn before c
    rw [hsmall, hfinish] at ih ⊢
    rw [hwords, ih (fun hmem ↦ hrest (hsplit ▸ List.mem_append_right _ hmem)) (Or.inr hafter)]
    rfl

/-- **A run is cut where the rule says.** -/
theorem segment_of_run (hcs : '_' ∉ cs) : segment cs = runWords cs := by
  rw [segment_eq_wordsAfter hcs (Or.inl rfl), wordsAfter_nil_left]

theorem segment_eq_flatMap (cs : List Char) : segment cs = (cs.splitOn '_').flatMap runWords := by
  induction hlength : cs.length using Nat.strongRecOn generalizing cs with
  | ind n ih =>
    by_cases hmem : '_' ∈ cs
    · obtain ⟨run, after, rfl, hrun⟩ := List.eq_append_cons_of_mem hmem
      have hafter := ih after.length (by simp [← hlength]; omega) after rfl
      rw [segment_append_underscore, List.splitOn_append_cons_self_of_not_mem hrun,
        List.flatMap_cons, segment_of_run hrun, hafter]
    · rw [List.splitOn_eq_singleton hmem, List.flatMap_singleton, segment_of_run hmem]

/-- **Where words begin.** The words of an identifier are the words of its runs between underscores,
one run after another. Those of a run make up the run, and begin where it begins and at exactly
those positions inside it that hold a capital and have a small letter as the last letter before them
or right after them. No word is empty, and the words one after another are the identifier without
its underscores. -/
theorem segmentWords_eq_runWords (name : String) :
    segmentWords name = ((name.toList.splitOn '_').flatMap runWords).map String.ofList ∧
    (∀ run, (runWords run).flatten = run ∧
      starts (runWords run) = (List.range run.length).filter fun p ↦ p == 0 || beginsWord run p) ∧
    "" ∉ segmentWords name ∧
    String.join (segmentWords name) = String.ofList (name.toList.filter (· != '_')) := by
  refine ⟨by rw [segmentWords, segment_eq_flatMap], fun run ↦ ?_, fun hempty ↦ ?_, ?_⟩
  · exact ⟨flatten_cutBefore _ run, starts_cutBefore _ run⟩
  · rw [segmentWords] at hempty
    obtain ⟨word, hword, hword'⟩ := List.mem_map.mp hempty
    exact (of_mem_segment hword).1 (String.ofList_eq_empty_iff.mp hword')
  · refine String.toList_injective ?_
    rw [String.toList_join, segmentWords, List.flatMap_map, String.toList_ofList, ← flatten_segment]
    simp only [String.toList_ofList, List.flatMap_id']

/-- A run of capitals gives its last one to a small letter, and digits are passed over. -/
example : segmentWords "OpenGLES2View__a2B_3Dx" =
    ["Open", "GLES2", "View", "a2", "B", "3", "Dx"] := by decide +kernel

end XrBindings.Naming
