/-!
# Sets of code points

A property of characters is a list of closed ranges of code points; membership is asked one
character at a time. Letter case alternates along the alphabets outside ASCII, so the case
tables use runs with a stride: a run `⟨first, last, step⟩` holds `first`, `first + step`, and so
on up to `last`.
-/

namespace XrBindings.Text

/-- A set of code points, as closed ranges. -/
abbrev CodeRanges := List (Nat × Nat)

def CodeRanges.contains (ranges : CodeRanges) (c : Char) : Bool :=
  ranges.any fun r ↦ r.1 ≤ c.toNat && c.toNat ≤ r.2

/-- The code points `first`, `first + step`, … that do not pass `last`. -/
structure CodeRun where
  first : Nat
  last : Nat
  step : Nat

def CodeRun.contains (run : CodeRun) (c : Char) : Bool :=
  run.first ≤ c.toNat && c.toNat ≤ run.last && (c.toNat - run.first) % run.step == 0

end XrBindings.Text
