import XrBindings.Failure
import XrBindings.Text.Blank
import XrBindings.Text.Digit

/-!
# Integers as text

A positional number: digits with at most one underscore between neighbours, in any script that
has decimal digits. White space may surround it. The digits of base sixteen are the decimal ones
and the Latin letters A to F of either case.

Base ten has a limit. The time to convert a number to or from it grows with the square of its
length, so that longer ones are refused, in both directions. Base sixteen has no such limit.
-/

namespace XrBindings.Number

open XrBindings.Text

/-- White space that may surround a number: that of the C locale, and all white space outside
ASCII. -/
def isNumberBlank (c : Char) : Bool := isAsciiBlank c || (128 ≤ c.toNat && isBlank c)

/-- The value of a digit of base sixteen. -/
def hexValue? (c : Char) : Option Nat :=
  if 'a' ≤ c && c ≤ 'f' then some (c.toNat - 'a'.toNat + 10)
  else if 'A' ≤ c && c ≤ 'F' then some (c.toNat - 'A'.toNat + 10)
  else decimalValue? c

/-- The number that digits denote, most significant first. -/
def ofDigits (base : Nat) (digits : List Nat) : Nat :=
  digits.foldl (fun n d ↦ base * n + d) 0

/-- Digits with single underscores between them. Cutting at the underscores has to leave groups
that are not empty, so none stands at an end or beside another. -/
def readDigits? (value? : Char → Option Nat) (cs : List Char) : Option (List Nat) :=
  let groups := cs.splitOn '_'
  if groups.all fun g ↦ !g.isEmpty then groups.flatten.mapM value? else none

/-- The most digits of a number that is converted to or from base ten. -/
def maxDecimalDigits : Nat := 4300

/-- A natural number in base ten. Zeros in front count as digits, underscores do not. -/
def readDecimal? (cs : List Char) : Option Nat :=
  ((readDigits? decimalValue? cs).filter fun ds ↦ ds.length ≤ maxDecimalDigits).map (ofDigits 10)

/-- A natural number in base sixteen, after its mark `0x`; one underscore may follow the mark. -/
def readHex? (cs : List Char) : Option Nat :=
  let digits := match cs with
    | '_' :: rest => rest
    | _ => cs
  (readDigits? hexValue? digits).map (ofDigits 16)

/-- Drop the white space around a number. -/
def trimNumber (cs : List Char) : List Char :=
  ((cs.dropWhile isNumberBlank).reverse.dropWhile isNumberBlank).reverse

/-- An integer in base ten with an optional sign. -/
def readSigned? (cs : List Char) : Option Int :=
  match cs with
  | '-' :: rest => (readDecimal? rest).map fun n ↦ -(n : Int)
  | '+' :: rest => (readDecimal? rest).map Int.ofNat
  | _ => (readDecimal? cs).map Int.ofNat

/-- An integer literal: base sixteen after `0x` or `0X`, otherwise base ten with a sign. -/
def readInteger? (cs : List Char) : Option Int :=
  match trimNumber cs with
  | '0' :: 'x' :: rest => (readHex? rest).map Int.ofNat
  | '0' :: 'X' :: rest => (readHex? rest).map Int.ofNat
  | body => readSigned? body

/-- An integer in base ten, with white space around it and an optional sign. -/
def readDecimalInteger? (cs : List Char) : Option Int := readSigned? (trimNumber cs)

/-- The text of an integer in base ten. The sign is no digit. -/
def decimalText (n : Int) : Result String :=
  if (Nat.toDigits 10 n.natAbs).length ≤ maxDecimalDigits then .ok (toString n)
  else .error .tooManyDigits

/-- Reject the registry with a message that shows an integer. -/
def rejectShowing {α : Type} (n : Int) (error : GenerationError) : Result α := do
  let _ ← decimalText n
  reject error

end XrBindings.Number
