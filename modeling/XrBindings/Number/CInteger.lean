import XrBindings.Number.IntegerText
import XrBindings.Text.Cut

/-!
# C integer expressions

The integer constants of the registry: literals with a width suffix, under unary minus, unary
complement and parentheses. The value is taken over the unbounded integers, where the complement
of `n` is `-n - 1`; the suffix does not truncate it.

What stands behind a sign is read by a call of its own, inside the call that has met the sign. Only
so many calls can be open at a time, so an expression may have too many signs to be read.
-/

namespace XrBindings.Number

open XrBindings.Text

/-- The width suffixes, longest first, so that the first one that fits is the whole suffix. -/
def widthSuffixes : List (List Char) :=
  [['u', 'l', 'l'], ['u', 'l'], ['l', 'l'], ['u'], ['l']]

/-- Drop the width suffix of a literal; case does not matter. -/
def dropWidthSuffix (cs : List Char) : List Char :=
  match widthSuffixes.find? fun suffix ↦ suffix.isSuffixOf (cs.map Char.toLower) with
  | some suffix => cs.take (cs.length - suffix.length)
  | none => cs

/-- Trim, and take off parentheses that stand at both ends, as long as there are any. -/
def dropParens (cs : List Char) : List Char :=
  match _h : trimChars cs with
  | '(' :: rest => if rest.getLast? = some ')' then dropParens rest.dropLast else '(' :: rest
  | body => body
termination_by cs.length
decreasing_by
  have h := length_trimChars_le cs
  rw [_h, List.length_cons] at h
  rw [List.length_dropLast]
  omega

/-- The value of an integer expression, or none if the text is no expression. There is room for as
many calls behind signs. -/
def readCInteger (room : Nat) (cs : List Char) : Result (Option Int) :=
  match dropParens cs with
  | '~' :: rest =>
    match room with
    | 0 => .error .tooManySigns
    | room + 1 => (readCInteger room rest).map (·.map fun n ↦ -n - 1)
  | '-' :: rest =>
    match room with
    | 0 => .error .tooManySigns
    | room + 1 => (readCInteger room rest).map (·.map fun n ↦ -n)
  | body => .ok (readInteger? (dropWidthSuffix body))

/-- The room for signs while a registry is read. At most 1000 calls are open at a time, and the
others are those that lead from the start of the program to the text. -/
def signRoom : Nat := 985

end XrBindings.Number
