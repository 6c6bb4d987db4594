import XrBindings.Chain
import XrBindings.Proofs.Cycle
import XrBindings.Proofs.Distinct
import XrBindings.Table

/-!
# Where chains end

Following links decides how a chain goes on: it arrives exactly at the end of the chain, and it
returns exactly when the chain never ends. Both outcomes are stated for the relation of the links,
so that what is said about types, values and commands need not mention the search.

How long the search takes is said of its rounds. A round passes a place that has a link and was not
passed before, so there are no more rounds than links.
-/

namespace XrBindings.Chain

open Relation

variable {κ : Type} [DecidableEq κ] {links : List (κ × κ)}

/-- The step along a link. -/
def Step (links : List (κ × κ)) (a b : κ) : Prop := links.lookup a = some b

theorem rightUnique_step : Relator.RightUnique (Step links) := by
  intro a b c hab hac
  rw [Step] at hab hac
  rwa [hab, Option.some.injEq] at hac

theorem not_step_of_lookup {a : κ} (h : links.lookup a = none) (b : κ) : ¬Step links a b := by
  rw [Step, h]
  simp

theorem step_filterMap_iff {α β : Type} {l : List α} {key : α → κ} {target? : α → Option β}
    {place : β → κ} (hd : (l.map key).Nodup) {a b : κ} :
    Step (l.filterMap fun x ↦ (target? x).map fun t ↦ (key x, place t)) a b
      ↔ ∃ x ∈ l, key x = a ∧ ∃ t, target? x = some t ∧ b = place t := by
  have hkeys : ((l.filterMap fun x ↦ (target? x).map fun t ↦ (key x, place t)).map
      Prod.fst).Sublist (l.map key) := by
    refine map_filterMap_sublist key (fun x e he ↦ ?_) l
    obtain ⟨t, -, rfl⟩ := Option.map_eq_some_iff.mp he
    rfl
  rw [Step, Table.lookup_eq_some_iff_mem (hd.sublist hkeys), List.mem_filterMap]
  simp only [Option.map_eq_some_iff, Prod.mk.injEq]
  constructor
  · rintro ⟨x, hx, t, ht, rfl, rfl⟩
    exact ⟨x, hx, rfl, t, ht, rfl⟩
  · rintro ⟨x, hx, rfl, t, ht, rfl⟩
    exact ⟨x, hx, t, ht, rfl, rfl⟩

theorem step_filter_iff {p : κ → Bool} {a b : κ} :
    Step (links.filter fun l ↦ p l.1) a b ↔ p a = true ∧ Step links a b := by
  simp only [Step]
  induction links with
  | nil => simp
  | cons l links ih =>
    rw [List.filter_cons, Table.lookup_cons_eq_ite l]
    by_cases ha : a = l.1
    · subst ha
      by_cases hp : p l.1 = true
      · rw [if_pos hp, Table.lookup_cons_eq_ite, if_pos rfl]
        simp [hp]
      · rw [if_neg hp, ih]
        simp [hp]
    · rw [if_neg ha, ← ih]
      split
      · rw [Table.lookup_cons_eq_ite, if_neg ha]
      · rfl

theorem endsAt_of_followFrom {passed : List κ} {place last : κ}
    (h : followFrom links passed place = .arrives last) : EndsAt (Step links) place last := by
  fun_induction followFrom links passed place with
  | case1 passed place hp => simp at h
  | case2 passed place hp hl =>
    obtain rfl := Outcome.arrives.inj h
    exact EndsAt.refl (not_step_of_lookup hl)
  | case3 passed place hp next hl ih => exact (ih h).head hl

theorem leadsToCycle_of_followFrom {passed passed' : List κ} {place again : κ}
    (h : followFrom links passed place = .returns passed' again)
    (hp : ∀ p ∈ passed, TransGen (Step links) p place) : LeadsToCycle (Step links) place := by
  fun_induction followFrom links passed place with
  | case1 passed place hmem => exact ⟨place, .refl, hp place hmem⟩
  | case2 passed place hmem hl => simp at h
  | case3 passed place hmem next hl ih =>
    refine (ih h fun p hp' ↦ ?_).head hl
    rw [List.mem_append, List.mem_singleton] at hp'
    obtain hp' | rfl := hp'
    · exact (hp p hp').tail hl
    · exact .single hl

theorem follow_eq_arrives_iff {a x : κ} :
    follow links a = .arrives x ↔ EndsAt (Step links) a x := by
  constructor
  · exact endsAt_of_followFrom
  · intro h
    cases hf : follow links a with
    | arrives last => rw [(endsAt_of_followFrom hf).unique rightUnique_step h]
    | returns passed again =>
      exact absurd (leadsToCycle_of_followFrom hf (by simp)) (h.not_leadsToCycle rightUnique_step)

theorem exists_follow_eq_returns_iff {a : κ} :
    (∃ passed again, follow links a = .returns passed again) ↔ LeadsToCycle (Step links) a := by
  constructor
  · rintro ⟨passed, again, h⟩
    exact leadsToCycle_of_followFrom h (by simp)
  · intro h
    cases hf : follow links a with
    | arrives last =>
      exact absurd h ((follow_eq_arrives_iff.mp hf).not_leadsToCycle rightUnique_step)
    | returns passed again => exact ⟨passed, again, rfl⟩

theorem exists_endsAt_or_leadsToCycle (links : List (κ × κ)) (a : κ) :
    (∃ x, EndsAt (Step links) a x) ∨ LeadsToCycle (Step links) a := by
  cases hf : follow links a with
  | arrives last => exact Or.inl ⟨last, follow_eq_arrives_iff.mp hf⟩
  | returns passed again => exact Or.inr (exists_follow_eq_returns_iff.mp ⟨passed, again, hf⟩)

/-- Links have no cycle exactly if following them from everything that has a link arrives. -/
theorem acyclic_step_iff :
    (∀ a, ¬TransGen (Step links) a a)
      ↔ ∀ a ∈ links.map Prod.fst, ∃ x, follow links a = .arrives x := by
  simp only [follow_eq_arrives_iff]
  constructor
  · intro hacyclic a _
    obtain hends | hcycle := exists_endsAt_or_leadsToCycle links a
    · exact hends
    · exact absurd hcycle (not_leadsToCycle_of_acyclic hacyclic a)
  · intro hall a hcycle
    obtain ⟨b, hab, -⟩ := TransGen.head'_iff.mp hcycle
    obtain ⟨x, hx⟩ := hall a (mem_of_lookup hab)
    exact hx.not_leadsToCycle rightUnique_step ⟨a, .refl, hcycle⟩

/-- What is passed on the way: the start, and then only places that a link leads to. -/
theorem returns_eq_cons {a again : κ} {passed : List κ}
    (h : follow links a = .returns passed again) :
    ∃ rest, passed ++ [again] = a :: rest ∧ ∀ x ∈ rest, ∃ y, Step links y x := by
  have hfrom : ∀ (before : List κ) (place : κ),
      followFrom links before place = .returns passed again →
        ∃ rest, passed ++ [again] = before ++ place :: rest ∧ ∀ x ∈ rest, ∃ y, Step links y x := by
    intro before place hf
    fun_induction followFrom links before place with
    | case1 before place hp =>
      obtain ⟨rfl, rfl⟩ := Outcome.returns.inj hf
      exact ⟨[], rfl, by simp⟩
    | case2 before place hp hl => simp at hf
    | case3 before place hp next hl ih =>
      obtain ⟨rest, hrest, hsteps⟩ := ih hf
      refine ⟨next :: rest, by simpa using hrest, ?_⟩
      intro x hx
      obtain rfl | hx := List.mem_cons.mp hx
      · exact ⟨place, hl⟩
      · exact hsteps x hx
  simpa using hfrom [] a h

/-! ## Rounds -/

/-- A walk under way: the places that it has passed, and the place where it stands. -/
structure Walk (κ : Type) where
  passed : List κ
  place : κ

/-- One round: a walk takes the link of its place, unless it has passed this place. -/
inductive Round (links : List (κ × κ)) : Walk κ → Walk κ → Prop
  | take {passed : List κ} {place next : κ} (hnew : place ∉ passed)
      (hlink : Step links place next) : Round links ⟨passed, place⟩ ⟨passed ++ [place], next⟩

namespace Walk

/-- What a walk gives that takes no further round. -/
def outcome (w : Walk κ) : Outcome κ :=
  if w.place ∈ w.passed then .returns w.passed w.place else .arrives w.place

/-- A walk has passed no place twice, and only places with a link. -/
structure Valid (links : List (κ × κ)) (w : Walk κ) : Prop where
  nodup : w.passed.Nodup
  linked : w.passed ⊆ links.map Prod.fst

omit [DecidableEq κ] in
/-- There are no more rounds than links. -/
theorem Valid.length_passed_le {w : Walk κ} (h : w.Valid links) :
    w.passed.length ≤ links.length := by
  have hle := (h.nodup.subperm h.linked).length_le
  rwa [List.length_map] at hle

end Walk

variable {w w' : Walk κ}

/-- A round keeps what is known of a walk. -/
theorem Round.valid (h : Round links w w') (hw : w.Valid links) : w'.Valid links := by
  cases h with
  | @take passed place next hnew hlink =>
    refine ⟨?_, ?_⟩
    · rw [List.nodup_append_comm, List.singleton_append, List.nodup_cons]
      exact ⟨hnew, hw.nodup⟩
    · refine List.append_subset.mpr ⟨hw.linked, ?_⟩
      exact List.cons_subset.mpr ⟨mem_of_lookup hlink, List.nil_subset _⟩

theorem valid_of_rounds (h : ReflTransGen (Round links) w w') (hw : w.Valid links) :
    w'.Valid links := by
  induction h with
  | refl => exact hw
  | tail _ hround ih => exact hround.valid ih

/-- The search goes on by rounds, and stops with what the walk gives. -/
theorem exists_endsAt_round (links : List (κ × κ)) (passed : List κ) (place : κ) :
    ∃ w, EndsAt (Round links) ⟨passed, place⟩ w ∧ followFrom links passed place = w.outcome := by
  fun_induction followFrom links passed place with
  | case1 passed place hp =>
    refine ⟨⟨passed, place⟩, .refl ?_, by rw [Walk.outcome, if_pos hp]⟩
    rintro _ ⟨hnew, -⟩
    exact hnew hp
  | case2 passed place hp hl =>
    refine ⟨⟨passed, place⟩, .refl ?_, by rw [Walk.outcome, if_neg hp]⟩
    rintro _ ⟨-, hlink⟩
    exact not_step_of_lookup hl _ hlink
  | case3 passed place hp next hl ih =>
    obtain ⟨w, hw, houtcome⟩ := ih
    exact ⟨w, hw.head (.take hp hl), houtcome⟩

/-- Following from a place stops after a number of rounds at most, each of which passes one
place. -/
def EndsWithin (links : List (κ × κ)) (start : κ) (n : ℕ) : Prop :=
  ∃ w, EndsAt (Round links) ⟨[], start⟩ w ∧ w.passed.length ≤ n ∧ follow links start = w.outcome

/-- **Following ends** after at most as many rounds as there are links. -/
theorem endsWithin (links : List (κ × κ)) (start : κ) {n : ℕ} (hn : links.length ≤ n) :
    EndsWithin links start n := by
  obtain ⟨w, hw, houtcome⟩ := exists_endsAt_round links [] start
  have hvalid := valid_of_rounds hw.1 ⟨List.nodup_nil, List.nil_subset _⟩
  exact ⟨w, hw, hvalid.length_passed_le.trans hn, houtcome⟩

end XrBindings.Chain
