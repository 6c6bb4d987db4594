import Mathlib.Data.List.Nodup
import Mathlib.Data.List.Perm.Basic
import XrBindings.Proofs.Cycle
import XrBindings.TypeGraph.Placement

/-!
# What is placed, and in which order

Each name is placed when it is next: all it needs is placed, and of the names for which that holds
it has the smallest position. This determines the order, so it depends on nothing but the needs
and the positions. It does not depend on the order in which needs are listed or counted down.

What is never placed are exactly the names that lead to a cycle of needs.

## The invariant

The loop keeps counters and a queue beside the names that are placed. They say the same thing in
three ways: each counter is the number of needs that are not placed, and the queue holds exactly
the names that wait for nothing, by position. The state between two placements has this form;
while counters are counted down it has not, and so one placement is a single step here.
-/

namespace XrBindings.Placement

variable {κ : Type}

/-! ## The relation between tasks -/

def names (tasks : List (Task κ)) : List κ := tasks.map (·.name)

/-- A task needs a name. -/
def Needs (tasks : List (Task κ)) (a b : κ) : Prop := ∃ t ∈ tasks, t.name = a ∧ b ∈ t.needs

/-- Tasks in the order of their positions, which need only each other. -/
structure WellFormed (position : κ → ℕ) (tasks : List (Task κ)) : Prop where
  /-- Positions increase, so no name stands twice. -/
  pairwise : (names tasks).Pairwise (position · < position ·)
  /-- No need is listed twice. -/
  nodup_needs : ∀ t ∈ tasks, t.needs.Nodup
  /-- What is needed is a task. -/
  closed : ∀ a b, Needs tasks a b → b ∈ names tasks

/-- A name can be placed after `before`. -/
def Ready (tasks : List (Task κ)) (before : List κ) (a : κ) : Prop :=
  a ∈ names tasks ∧ a ∉ before ∧ ∀ b, Needs tasks a b → b ∈ before

/-- Of the names that can be placed after `before` it has the smallest position. -/
def Next (position : κ → ℕ) (tasks : List (Task κ)) (before : List κ) (a : κ) : Prop :=
  Ready tasks before a ∧ ∀ b, Ready tasks before b → position a ≤ position b

/-- Every name was next when it was placed. -/
def Greedy (position : κ → ℕ) (tasks : List (Task κ)) (placed : List κ) : Prop :=
  ∀ before a after, placed = before ++ a :: after → Next position tasks before a

variable {position : κ → ℕ} {tasks : List (Task κ)} {placed before after : List κ} {a b : κ}

namespace WellFormed

theorem nodup (h : WellFormed position tasks) : (names tasks).Nodup :=
  h.pairwise.imp fun hlt heq ↦ absurd (heq ▸ hlt) (lt_irrefl _)

theorem eq_of_position (h : WellFormed position tasks) (ha : a ∈ names tasks)
    (hb : b ∈ names tasks) (hab : position a = position b) : a = b := by
  have hpositions : ((names tasks).map position).Nodup := by
    rw [List.Nodup, List.pairwise_map]
    exact h.pairwise.imp fun hlt ↦ hlt.ne
  exact List.inj_on_of_nodup_map hpositions ha hb hab

theorem eq_of_name (h : WellFormed position tasks) {t t' : Task κ} (ht : t ∈ tasks)
    (ht' : t' ∈ tasks) (hname : t.name = t'.name) : t = t' :=
  List.inj_on_of_nodup_map h.nodup ht ht' hname

theorem needs_iff (h : WellFormed position tasks) {t : Task κ} (ht : t ∈ tasks) :
    Needs tasks t.name b ↔ b ∈ t.needs := by
  constructor
  · rintro ⟨t', ht', hname, hb⟩
    rwa [← h.eq_of_name ht' ht hname]
  · intro hb
    exact ⟨t, ht, rfl, hb⟩

end WellFormed

/-- The same tasks, with their needs listed in any order. -/
def Reordered (tasks tasks' : List (Task κ)) : Prop :=
  List.Forall₂ (fun t t' ↦ t.name = t'.name ∧ t.needs.Perm t'.needs) tasks tasks'

namespace Reordered

variable {tasks' : List (Task κ)}

theorem names_eq (h : Reordered tasks tasks') : names tasks' = names tasks := by
  induction h with
  | nil => rfl
  | cons ht _ ih => exact congrArg₂ List.cons ht.1.symm ih

theorem needs_eq (h : Reordered tasks tasks') : Needs tasks' = Needs tasks := by
  ext a b
  induction h with
  | nil => simp [Needs]
  | cons ht _ ih =>
    simp only [Needs, List.mem_cons, exists_eq_or_imp, ← ht.1, ← ht.2.mem_iff] at ih ⊢
    rw [ih]

theorem nodup_needs (h : Reordered tasks tasks') (hd : ∀ t ∈ tasks, t.needs.Nodup) :
    ∀ t ∈ tasks', t.needs.Nodup := by
  induction h with
  | nil => simp
  | cons ht _ ih =>
    rw [List.forall_mem_cons] at hd ⊢
    exact ⟨ht.2.nodup_iff.mp hd.1, ih hd.2⟩

theorem wellFormed (h : Reordered tasks tasks') (hw : WellFormed position tasks) :
    WellFormed position tasks' where
  pairwise := h.names_eq ▸ hw.pairwise
  nodup_needs := h.nodup_needs hw.nodup_needs
  closed a b hab := h.names_eq ▸ hw.closed a b (h.needs_eq ▸ hab)

end Reordered

/-! ## Greedy orders -/

theorem greedy_nil : Greedy position tasks [] := by
  intro before a after h
  simp at h

theorem Greedy.of_append (h : Greedy position tasks (before ++ after)) :
    Greedy position tasks before := by
  rintro before' a after' rfl
  exact h before' a (after' ++ after) (by simp)

theorem Greedy.append_singleton (h : Greedy position tasks placed)
    (ha : Next position tasks placed a) : Greedy position tasks (placed ++ [a]) := by
  intro before b after hsplit
  obtain rfl | ⟨after', z, rfl⟩ := List.eq_nil_or_concat after
  · obtain ⟨rfl, hab⟩ := List.append_inj' hsplit rfl
    rwa [← List.singleton_inj.mp hab]
  · have hplaced : placed ++ [a] = (before ++ b :: after') ++ [z] := by simpa using hsplit
    exact h before b after' (List.append_inj' hplaced rfl).1

theorem Greedy.of_mem (h : Greedy position tasks placed) (ha : a ∈ placed) :
    a ∈ names tasks ∧ ∀ b, Needs tasks a b → b ∈ placed := by
  obtain ⟨before, after, rfl⟩ := List.append_of_mem ha
  obtain ⟨hname, -, hneeds⟩ := (h before a after rfl).1
  exact ⟨hname, fun b hb ↦ List.mem_append_left _ (hneeds b hb)⟩

theorem Greedy.nodup (h : Greedy position tasks placed) : placed.Nodup := by
  induction placed using List.reverseRecOn with
  | nil => exact List.nodup_nil
  | append_singleton placed a ih =>
    have ha := (h placed a [] rfl).1.2.1
    rw [List.nodup_append]
    refine ⟨ih h.of_append, List.nodup_singleton a, ?_⟩
    rintro b hb c hc rfl
    exact ha (List.mem_singleton.mp hc ▸ hb)

/-- Of two greedy orders one begins with the other. -/
theorem Greedy.prefix_or_prefix (hw : WellFormed position tasks)
    (h : Greedy position tasks placed) {placed' : List κ} (h' : Greedy position tasks placed') :
    placed <+: placed' ∨ placed' <+: placed := by
  induction placed using List.reverseRecOn with
  | nil => exact Or.inl (List.nil_prefix)
  | append_singleton placed a ih =>
    obtain ⟨rest, rfl⟩ | hpre := ih h.of_append
    · cases rest with
      | nil => exact Or.inr ⟨[a], by simp⟩
      | cons b rest =>
        have ha := h placed a [] rfl
        have hb := h' placed b rest rfl
        have hpos : position a = position b := le_antisymm (ha.2 b hb.1) (hb.2 a ha.1)
        obtain rfl := hw.eq_of_position ha.1.1 hb.1.1 hpos
        exact Or.inl ⟨rest, by simp⟩
    · exact Or.inr (hpre.trans (List.prefix_append _ _))

/-- There is only one greedy order after which nothing can be placed. -/
theorem Greedy.eq_of_maximal (hw : WellFormed position tasks)
    (h : Greedy position tasks placed) (hmax : ∀ a, ¬Ready tasks placed a)
    {placed' : List κ} (h' : Greedy position tasks placed')
    (hmax' : ∀ a, ¬Ready tasks placed' a) : placed = placed' := by
  obtain ⟨rest, rfl⟩ | ⟨rest, rfl⟩ := h.prefix_or_prefix hw h'
  · cases rest with
    | nil => simp
    | cons b rest => exact absurd (h' placed b rest rfl).1 (hmax b)
  · cases rest with
    | nil => simp
    | cons b rest => exact absurd (h placed' b rest rfl).1 (hmax' b)

/-- If the tasks stand after what they need, their own order is greedy. -/
theorem greedy_names (hw : WellFormed position tasks)
    (h : ∀ before a after, names tasks = before ++ a :: after → ∀ b, Needs tasks a b → b ∈ before) :
    Greedy position tasks (names tasks) := by
  intro before a after hsplit
  have hnodup := hw.nodup
  have hpair := hw.pairwise
  rw [hsplit] at hnodup hpair
  have ha : a ∉ before := fun hm ↦ (List.nodup_append.mp hnodup).2.2 a hm a (by simp) rfl
  refine ⟨⟨by simp [hsplit], ha, h before a after hsplit⟩, ?_⟩
  rintro b ⟨hb, hbefore, -⟩
  rw [hsplit, List.mem_append, or_iff_right hbefore, List.mem_cons] at hb
  obtain rfl | hb := hb
  · exact le_refl _
  · exact ((List.pairwise_cons.mp (List.pairwise_append.mp hpair).2.1).1 b hb).le

/-! ## What cannot be placed -/

theorem Greedy.not_leadsToCycle (h : Greedy position tasks placed) (ha : a ∈ placed) :
    ¬LeadsToCycle (Needs tasks) a := by
  induction placed using List.reverseRecOn generalizing a with
  | nil => simp at ha
  | append_singleton placed c ih =>
    have hplaced : ∀ b ∈ placed, ¬LeadsToCycle (Needs tasks) b := fun b hb ↦ ih h.of_append hb
    rw [List.mem_append, List.mem_singleton] at ha
    obtain ha | rfl := ha
    · exact hplaced a ha
    · intro hcycle
      obtain ⟨b, hab, hb⟩ := hcycle.exists_succ
      exact hplaced b ((h placed a [] rfl).1.2.2 b hab) hb

/-- When nothing can be placed any more, the names that are left are those that lead to a
cycle. -/
theorem Greedy.notMem_iff_leadsToCycle (hw : WellFormed position tasks)
    (h : Greedy position tasks placed) (hmax : ∀ a, ¬Ready tasks placed a)
    (ha : a ∈ names tasks) : a ∉ placed ↔ LeadsToCycle (Needs tasks) a := by
  refine ⟨fun hnot ↦ ?_, fun hcycle hm ↦ h.not_leadsToCycle hm hcycle⟩
  classical
  have hall : ∀ c ∈ (names tasks).filter (· ∉ placed),
      ∃ b ∈ (names tasks).filter (· ∉ placed), Needs tasks c b := by
    intro c hc
    rw [List.mem_filter, decide_eq_true_eq] at hc
    -- What is left is not ready, so something that it needs is left as well.
    have hneed : ∃ b, Needs tasks c b ∧ b ∉ placed := by
      by_contra hnone
      push Not at hnone
      exact hmax c ⟨hc.1, hc.2, hnone⟩
    obtain ⟨b, hcb, hb⟩ := hneed
    refine ⟨b, ?_, hcb⟩
    rw [List.mem_filter, decide_eq_true_eq]
    exact ⟨hw.closed c b hcb, hb⟩
  exact leadsToCycle_of_forall_mem hall (by simp [ha, hnot])

/-! ## The queue -/

theorem enqueue_perm (position : κ → ℕ) (queue : List κ) (name : κ) :
    (enqueue position queue name).Perm (name :: queue) := by
  induction queue with
  | nil => exact .refl _
  | cons first rest ih =>
    rw [enqueue]
    split
    · exact .refl _
    · exact (ih.cons first).trans (.swap name first rest)

theorem pairwise_enqueue {queue : List κ} (h : queue.Pairwise (position · ≤ position ·))
    (name : κ) : (enqueue position queue name).Pairwise (position · ≤ position ·) := by
  induction queue with
  | nil => exact List.pairwise_singleton _ _
  | cons first rest ih =>
    obtain ⟨hfirst, hrest⟩ := List.pairwise_cons.mp h
    rw [enqueue]
    split
    · next hle =>
      refine List.pairwise_cons.mpr ⟨fun b hb ↦ ?_, h⟩
      obtain rfl | hb := List.mem_cons.mp hb
      · exact hle
      · exact hle.trans (hfirst b hb)
    · next hlt =>
      refine List.pairwise_cons.mpr ⟨fun b hb ↦ ?_, ih hrest⟩
      obtain rfl | hb := List.mem_cons.mp ((enqueue_perm position rest name).mem_iff.mp hb)
      · exact (not_le.mp hlt).le
      · exact hfirst b hb

theorem foldl_enqueue_perm (position : κ → ℕ) (queue names : List κ) :
    (names.foldl (enqueue position) queue).Perm (names ++ queue) := by
  induction names generalizing queue with
  | nil => exact .refl _
  | cons name names ih =>
    rw [List.foldl_cons]
    refine (ih _).trans (((enqueue_perm position queue name).append_left names).trans ?_)
    exact List.perm_middle

theorem pairwise_foldl_enqueue {queue : List κ} (h : queue.Pairwise (position · ≤ position ·))
    (names : List κ) :
    (names.foldl (enqueue position) queue).Pairwise (position · ≤ position ·) := by
  induction names generalizing queue with
  | nil => exact h
  | cons name names ih => exact ih (pairwise_enqueue h name)

variable [DecidableEq κ]

/-! ## Counting down -/

theorem mem_dependents_iff : a ∈ dependents tasks b ↔ Needs tasks a b := by
  simp only [dependents, List.mem_flatMap, List.mem_map, List.mem_filter, decide_eq_true_eq]
  constructor
  · rintro ⟨t, ht, n, ⟨hn, rfl⟩, rfl⟩
    exact ⟨t, ht, rfl, hn⟩
  · rintro ⟨t, ht, rfl, hb⟩
    exact ⟨t, ht, b, ⟨hb, rfl⟩, rfl⟩

theorem nodup_dependents (hw : WellFormed position tasks) (b : κ) :
    (dependents tasks b).Nodup := by
  have hsub : (dependents tasks b).Sublist (names tasks) := by
    have hneeds := hw.nodup_needs
    clear hw
    rw [dependents, names]
    induction tasks with
    | nil => exact .refl _
    | cons t tasks ih =>
      have hrest := ih fun t' ht' ↦ hneeds t' (List.mem_cons_of_mem _ ht')
      have ht := hneeds t List.mem_cons_self
      rw [List.flatMap_cons, List.map_cons]
      by_cases hb : b ∈ t.needs
      · have hone : t.needs.filter (· = b) = [b] := by
          rw [List.filter_eq, List.count_eq_one_of_mem ht hb, List.replicate_one]
        rw [hone]
        exact hrest.cons_cons t.name
      · have hnone : t.needs.filter (· = b) = [] := by
          rw [List.filter_eq, List.count_eq_zero_of_not_mem hb, List.replicate_zero]
        rw [hnone]
        exact hrest.cons t.name
  exact hw.nodup.sublist hsub

theorem placed_meet (position : κ → ℕ) (s : State κ) (a : κ) :
    (meet position s a).placed = s.placed := by
  rw [meet]
  split
  · rfl
  · split <;> rfl

theorem get?_waiting_meet (position : κ → ℕ) (s : State κ) (a b : κ) :
    (meet position s a).waiting.get? b
      = if b = a then (s.waiting.get? b).map (· - 1) else s.waiting.get? b := by
  rw [meet]
  cases hn : s.waiting.get? a with
  | none => by_cases hb : b = a <;> simp [hb, hn]
  | some n =>
    by_cases hb : b = a
    · subst hb
      by_cases h1 : n = 1 <;> simp [h1, hn, Table.get?_insert_self]
    · by_cases h1 : n = 1 <;> simp [h1, hb, Table.get?_insert_of_ne]

theorem queue_meet (position : κ → ℕ) (s : State κ) (a : κ) :
    (meet position s a).queue
      = if s.waiting.get? a = some 1 then enqueue position s.queue a else s.queue := by
  rw [meet]
  cases hn : s.waiting.get? a with
  | none => simp
  | some n => by_cases h1 : n = 1 <;> simp [h1]

theorem placed_foldl_meet (position : κ → ℕ) (s : State κ) (as : List κ) :
    (as.foldl (meet position) s).placed = s.placed := by
  induction as generalizing s with
  | nil => rfl
  | cons a as ih => rw [List.foldl_cons, ih, placed_meet]

theorem get?_waiting_foldl_meet (position : κ → ℕ) (s : State κ) {as : List κ} (hd : as.Nodup)
    (b : κ) : (as.foldl (meet position) s).waiting.get? b
      = if b ∈ as then (s.waiting.get? b).map (· - 1) else s.waiting.get? b := by
  induction as generalizing s with
  | nil => simp
  | cons a as ih =>
    obtain ⟨ha, hd⟩ := List.nodup_cons.mp hd
    rw [List.foldl_cons, ih _ hd, get?_waiting_meet]
    by_cases hb : b = a
    · subst hb
      simp [ha]
    · simp [hb]

theorem queue_foldl_meet (position : κ → ℕ) (s : State κ) {as : List κ} (hd : as.Nodup) :
    (as.foldl (meet position) s).queue
      = (as.filter (s.waiting.get? · = some 1)).foldl (enqueue position) s.queue := by
  induction as generalizing s with
  | nil => rfl
  | cons a as ih =>
    obtain ⟨ha, hd⟩ := List.nodup_cons.mp hd
    have hsame : as.filter (fun b ↦ (meet position s a).waiting.get? b = some 1)
        = as.filter (fun b ↦ s.waiting.get? b = some 1) := by
      refine List.filter_congr fun b hb ↦ ?_
      have hne : b ≠ a := fun hba ↦ ha (hba ▸ hb)
      rw [get?_waiting_meet, if_neg hne]
    rw [List.foldl_cons, ih _ hd, hsame, queue_meet, List.filter_cons]
    by_cases h1 : s.waiting.get? a = some 1 <;> simp [h1]

/-! ## The loop -/

/-- What the counters and the queue say between two placements. -/
structure Invariant (position : κ → ℕ) (tasks : List (Task κ)) (s : State κ) : Prop where
  greedy : Greedy position tasks s.placed
  /-- A counter is the number of needs that are not placed. -/
  waiting : ∀ t ∈ tasks, s.waiting.get? t.name = some (t.needs.countP (· ∉ s.placed))
  /-- The queue holds what can be placed, -/
  queue : ∀ a, a ∈ s.queue ↔ Ready tasks s.placed a
  /-- each name once, -/
  nodup : s.queue.Nodup
  /-- by position. -/
  sorted : s.queue.Pairwise (position · ≤ position ·)

/-- Placing a name changes the number of missing needs where it is needed. -/
theorem countP_notMem_append {needs : List κ} (hd : needs.Nodup) (ha : a ∉ placed) :
    needs.countP (· ∉ placed)
      = needs.countP (· ∉ placed ++ [a]) + (if a ∈ needs then 1 else 0) := by
  induction needs with
  | nil => rfl
  | cons n needs ih =>
    obtain ⟨hn, hd⟩ := List.nodup_cons.mp hd
    rw [List.countP_cons, List.countP_cons, ih hd]
    by_cases hna : n = a
    · subst hna
      simp [hn, ha]
    · by_cases hnp : n ∈ placed <;> by_cases han : a ∈ needs <;>
        simp [hna, hnp, han, Ne.symm hna]

theorem countP_notMem_eq_zero_iff {needs : List κ} :
    needs.countP (· ∉ placed) = 0 ↔ ∀ b ∈ needs, b ∈ placed := by
  simp [List.countP_eq_zero]

namespace Invariant

variable {s : State κ} {rest : List κ}

theorem next (h : Invariant position tasks s) (hq : s.queue = a :: rest) :
    Next position tasks s.placed a := by
  refine ⟨(h.queue a).mp (by simp [hq]), fun b hb ↦ ?_⟩
  have hsorted := h.sorted
  rw [hq] at hsorted
  have hmem := (h.queue b).mpr hb
  rw [hq, List.mem_cons] at hmem
  obtain rfl | hmem := hmem
  · exact le_refl _
  · exact (List.pairwise_cons.mp hsorted).1 b hmem

/-- What joins the queue when a name is placed, together with the rest of the queue, is what can
be placed then. -/
theorem mem_queue_place (hw : WellFormed position tasks) (h : Invariant position tasks s)
    (hq : s.queue = a :: rest) :
    (b ∈ (dependents tasks a).filter (s.waiting.get? · = some 1) ∨ b ∈ rest)
      ↔ Ready tasks (s.placed ++ [a]) b := by
  have ha := (h.next hq).1
  have hnodup := h.nodup
  rw [hq] at hnodup
  have harest := (List.nodup_cons.mp hnodup).1
  rw [List.mem_filter, mem_dependents_iff, decide_eq_true_eq]
  constructor
  · rintro (⟨hneeds, hone⟩ | hb)
    · obtain ⟨t, ht, rfl, hat⟩ := hneeds
      rw [h.waiting t ht, Option.some.injEq,
        countP_notMem_append (hw.nodup_needs t ht) ha.2.1, if_pos hat] at hone
      have hzero : t.needs.countP (· ∉ s.placed ++ [a]) = 0 := by omega
      have hall := countP_notMem_eq_zero_iff.mp hzero
      refine ⟨List.mem_map_of_mem ht, fun hmem ↦ ?_, fun c hc ↦ hall c ((hw.needs_iff ht).mp hc)⟩
      -- Had the task been placed, so would have been the need that is placed only now.
      have hta : Needs tasks t.name a := (hw.needs_iff ht).mpr hat
      rw [List.mem_append, List.mem_singleton] at hmem
      obtain hmem | heq := hmem
      · exact ha.2.1 ((h.greedy.of_mem hmem).2 a hta)
      · exact ha.2.1 (ha.2.2 a (heq ▸ hta))
    · obtain ⟨hname, hnot, hneeds⟩ := (h.queue b).mp (by simp [hq, hb])
      refine ⟨hname, fun hmem ↦ ?_, fun c hc ↦ List.mem_append_left _ (hneeds c hc)⟩
      rw [List.mem_append, or_iff_right hnot, List.mem_singleton] at hmem
      exact harest (hmem ▸ hb)
  · rintro ⟨hname, hnot, hneeds⟩
    rw [List.mem_append, List.mem_singleton, not_or] at hnot
    obtain ⟨t, ht, rfl⟩ := List.mem_map.mp hname
    have hall : t.needs.countP (· ∉ s.placed ++ [a]) = 0 :=
      countP_notMem_eq_zero_iff.mpr fun c hc ↦ hneeds c ((hw.needs_iff ht).mpr hc)
    have hcount := countP_notMem_append (hw.nodup_needs t ht) ha.2.1
    rw [hall, zero_add] at hcount
    by_cases hat : a ∈ t.needs
    · rw [if_pos hat] at hcount
      exact Or.inl ⟨(hw.needs_iff ht).mpr hat, by rw [h.waiting t ht, hcount]⟩
    · rw [if_neg hat] at hcount
      have hready : Ready tasks s.placed t.name :=
        ⟨hname, hnot.1, fun c hc ↦ countP_notMem_eq_zero_iff.mp hcount c ((hw.needs_iff ht).mp hc)⟩
      have hmem := (h.queue t.name).mpr hready
      rw [hq, List.mem_cons, or_iff_right hnot.2] at hmem
      exact Or.inr hmem

/-- **One placement.** The invariant is kept. -/
theorem place (hw : WellFormed position tasks) (h : Invariant position tasks s)
    (hq : s.queue = a :: rest) :
    Invariant position tasks (Placement.place position tasks s a rest) := by
  have ha := (h.next hq).1
  have hdep := nodup_dependents hw a
  have hnodup := h.nodup
  have hsorted := h.sorted
  rw [hq] at hnodup hsorted
  have hperm := foldl_enqueue_perm position rest
    ((dependents tasks a).filter (s.waiting.get? · = some 1))
  refine ⟨?_, ?_, ?_, ?_, ?_⟩
  · rw [Placement.place, placed_foldl_meet]
    exact h.greedy.append_singleton (h.next hq)
  · intro t ht
    have hdepends : t.name ∈ dependents tasks a ↔ a ∈ t.needs :=
      mem_dependents_iff.trans (hw.needs_iff ht)
    rw [Placement.place, get?_waiting_foldl_meet _ _ hdep, placed_foldl_meet, h.waiting t ht,
      countP_notMem_append (hw.nodup_needs t ht) ha.2.1]
    by_cases hat : a ∈ t.needs <;> simp [hdepends, hat]
  · intro b
    rw [Placement.place, queue_foldl_meet _ _ hdep, placed_foldl_meet, hperm.mem_iff,
      List.mem_append]
    exact h.mem_queue_place hw hq
  · rw [Placement.place, queue_foldl_meet _ _ hdep, hperm.nodup_iff, List.nodup_append]
    refine ⟨hdep.filter _, (List.nodup_cons.mp hnodup).2, ?_⟩
    rintro b hb c hc rfl
    -- What joins the queue needs `a`, and what stands in it needs nothing that is not placed.
    have hneeds := mem_dependents_iff.mp (List.mem_of_mem_filter hb)
    exact ha.2.1 (((h.queue b).mp (by simp [hq, hc])).2.2 a hneeds)
  · rw [Placement.place, queue_foldl_meet _ _ hdep]
    exact pairwise_foldl_enqueue (List.pairwise_cons.mp hsorted).2 _

theorem start (hw : WellFormed position tasks) :
    Invariant position tasks (Placement.start position tasks) := by
  have hperm := foldl_enqueue_perm position []
    ((tasks.filter (·.needs.isEmpty)).map (·.name))
  rw [List.append_nil] at hperm
  refine ⟨greedy_nil, ?_, ?_, ?_, pairwise_foldl_enqueue List.Pairwise.nil _⟩
  · intro t ht
    have hkeys : ((tasks.map fun t ↦ (t.name, t.needs.length)).map Prod.fst).Nodup := by
      rw [List.map_map]
      exact hw.nodup
    rw [Placement.start, Table.get?_eq_some_iff, Table.entries_ofList hkeys]
    exact List.mem_map.mpr ⟨t, ht, by simp⟩
  · intro b
    rw [Placement.start, hperm.mem_iff, List.mem_map]
    constructor
    · rintro ⟨t, ht, rfl⟩
      rw [List.mem_filter, List.isEmpty_iff] at ht
      refine ⟨List.mem_map_of_mem ht.1, by simp, fun c hc ↦ ?_⟩
      rw [hw.needs_iff ht.1, ht.2] at hc
      exact absurd hc (by simp)
    · rintro ⟨hname, -, hneeds⟩
      obtain ⟨t, ht, rfl⟩ := List.mem_map.mp hname
      refine ⟨t, List.mem_filter.mpr ⟨ht, ?_⟩, rfl⟩
      rw [List.isEmpty_iff, List.eq_nil_iff_forall_not_mem]
      intro c hc
      exact absurd (hneeds c ((hw.needs_iff ht).mpr hc)) (by simp)
  · rw [Placement.start, hperm.nodup_iff]
    exact hw.nodup.sublist (List.filter_sublist.map _)

/-- **The whole run.** It ends with an empty queue, and the invariant holds. -/
theorem run (hw : WellFormed position tasks) (h : Invariant position tasks s) :
    Invariant position tasks (Placement.run position tasks s) ∧
      (Placement.run position tasks s).queue = [] := by
  fun_induction Placement.run position tasks s with
  | case1 s hq => exact ⟨h, hq⟩
  | case2 s a rest hq ih => exact ih (h.place hw hq)

end Invariant

/-! ## The result -/

theorem greedy_order (hw : WellFormed position tasks) :
    Greedy position tasks (order position tasks) := ((Invariant.start hw).run hw).1.greedy

theorem not_ready_order (hw : WellFormed position tasks) (a : κ) :
    ¬Ready tasks (order position tasks) a := by
  intro ha
  obtain ⟨hinv, hqueue⟩ := (Invariant.start hw).run hw
  have hmem := (hinv.queue a).mpr ha
  rw [hqueue] at hmem
  exact absurd hmem (by simp)

theorem notMem_order_iff (hw : WellFormed position tasks) (ha : a ∈ names tasks) :
    a ∉ order position tasks ↔ LeadsToCycle (Needs tasks) a :=
  (greedy_order hw).notMem_iff_leadsToCycle hw (not_ready_order hw) ha

theorem length_order_eq_iff (hw : WellFormed position tasks) :
    (order position tasks).length = tasks.length
      ↔ ∀ a ∈ names tasks, a ∈ order position tasks := by
  have hgreedy := greedy_order hw
  have hsub : (order position tasks).Subperm (names tasks) :=
    hgreedy.nodup.subperm fun a ha ↦ (hgreedy.of_mem ha).1
  have hlen : (names tasks).length = tasks.length := List.length_map _
  rw [← hlen]
  constructor
  · intro heq a ha
    exact (hsub.perm_of_length_le heq.ge).mem_iff.mpr ha
  · intro hall
    exact (hsub.antisymm (hw.nodup.subperm hall)).length_eq

/-- Any greedy order after which nothing can be placed is the result. -/
theorem order_eq_of_greedy (hw : WellFormed position tasks)
    (h : Greedy position tasks placed) (hmax : ∀ a, ¬Ready tasks placed a) :
    order position tasks = placed :=
  (greedy_order hw).eq_of_maximal hw (not_ready_order hw) h hmax

theorem order_eq_of_reordered (hw : WellFormed position tasks) {tasks' : List (Task κ)}
    (h : Reordered tasks tasks') : order position tasks' = order position tasks := by
  have hgreedy := greedy_order hw
  have hmax := not_ready_order hw
  refine order_eq_of_greedy (h.wellFormed hw) ?_ ?_
  · simpa only [Greedy, Next, Ready, h.names_eq, h.needs_eq] using hgreedy
  · simpa only [Ready, h.names_eq, h.needs_eq] using hmax

end XrBindings.Placement
