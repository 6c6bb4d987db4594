/-!
# Chains of links

Types, commands and enum values may each be another spelling of something of the same kind, which
may be another spelling in turn. Following such links from a start either arrives at something
that links no further or comes back to a place that was passed. Both outcomes are values here, and
what they mean is for the caller to say.

A step is only taken from a place that has a link and was not passed before, so the places with a
link that were not passed grow fewer, and following links always ends.
-/

namespace XrBindings.Chain

variable {κ : Type} [DecidableEq κ]

/-- How a chain ends. -/
inductive Outcome (κ : Type) where
  /-- At a place without a link. -/
  | arrives (last : κ)
  /-- At a place that was passed: all places in order, and the one that is met again. -/
  | returns (passed : List κ) (again : κ)
  deriving DecidableEq, Repr

/-- The places with a link that were not passed. -/
def unpassed (links : List (κ × κ)) (passed : List κ) : List κ :=
  (links.map Prod.fst).filter fun k ↦ !passed.contains k

theorem mem_of_lookup {links : List (κ × κ)} {k v : κ} (h : links.lookup k = some v) :
    k ∈ links.map Prod.fst := by
  induction links with
  | nil => simp at h
  | cons e rest ih =>
    by_cases he : k = e.1
    · simp [he]
    · rw [List.lookup_cons, beq_false_of_ne he] at h
      exact List.mem_cons_of_mem _ (ih h)

theorem length_unpassed_lt {links : List (κ × κ)} {passed : List κ} {k : κ}
    (hk : k ∈ links.map Prod.fst) (hp : k ∉ passed) :
    (unpassed links (passed ++ [k])).length < (unpassed links passed).length := by
  have hsplit : unpassed links (passed ++ [k]) = (unpassed links passed).filter (· ≠ k) := by
    simp only [unpassed, List.filter_filter]
    refine List.filter_congr fun x _ ↦ ?_
    by_cases hx : x = k <;> simp [hx]
  rw [hsplit]
  refine List.length_filter_lt_length_iff_exists.mpr ⟨k, ?_, by simp⟩
  simp only [unpassed, List.mem_filter]
  exact ⟨hk, by simpa using hp⟩

/-- Follow links from a place, after those that were passed. -/
def followFrom (links : List (κ × κ)) (passed : List κ) (place : κ) : Outcome κ :=
  if _hp : place ∈ passed then .returns passed place
  else
    match _hl : links.lookup place with
    | none => .arrives place
    | some next => followFrom links (passed ++ [place]) next
termination_by (unpassed links passed).length
decreasing_by exact length_unpassed_lt (mem_of_lookup _hl) _hp

/-- Follow links from a place. -/
def follow (links : List (κ × κ)) (start : κ) : Outcome κ := followFrom links [] start

end XrBindings.Chain
