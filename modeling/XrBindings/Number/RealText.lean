import XrBindings.Number.Binary64
import XrBindings.Number.IntegerText

/-!
# Real numbers as text

Reading accepts decimal notation with an optional point and exponent, single underscores between
digits, and the words for infinity and not-a-number. Printing writes the shortest digits that
read back; the notation is positional while the leading digit lies between the places `10 ^ -4`
and `10 ^ 15`, and a point is always written there.
-/

namespace XrBindings.Number

namespace RealText

/-! ## Reading -/

/-- Drop the underscores of a number, given that every one stands between two ASCII digits. -/
def dropUnderscores? : List Char → Option (List Char)
  | [] => some []
  | '_' :: _ => none
  | c :: '_' :: d :: rest =>
    if c.isDigit && d.isDigit then (dropUnderscores? (d :: rest)).map (c :: ·) else none
  | [_, '_'] => none
  | c :: rest => (dropUnderscores? rest).map (c :: ·)

/-- The power of ten after the mantissa: nothing, or `e` and a signed number. -/
def readExponent? : List Char → Option Int
  | [] => some 0
  | e :: rest =>
    if e == 'e' || e == 'E' then
      match rest with
      | '-' :: ds => (digits? ds).map fun n ↦ -(n : Int)
      | '+' :: ds => (digits? ds).map Int.ofNat
      | ds => (digits? ds).map Int.ofNat
    else none
where
  /-- A natural number in ASCII digits. -/
  digits? (ds : List Char) : Option Nat :=
    if !ds.isEmpty && ds.all Char.isDigit then some (Nat.ofDigitChars 10 ds 0) else none

/-- Unsigned decimal notation: the digits as one number, and the power of ten. -/
def readUnsigned? (cs : List Char) : Option (Nat × Int) :=
  let (whole, rest) := cs.span Char.isDigit
  let (fraction, rest) := match rest with
    | '.' :: tail => tail.span Char.isDigit
    | _ => ([], rest)
  if whole.isEmpty && fraction.isEmpty then none
  else (readExponent? rest).map fun e ↦
    (Nat.ofDigitChars 10 (whole ++ fraction) 0, e - fraction.length)

/-- The words for numbers that decimal notation does not write. -/
def readWord? (negative : Bool) (cs : List Char) : Option Binary64 :=
  let word := String.ofList (cs.map Char.toLower)
  if word == "inf" || word == "infinity" then some (.infinite negative)
  else if word == "nan" then some .notANumber
  else none

/-- A character as the number grammar sees it: a decimal digit of any script is that digit. -/
def asciiDigit (c : Char) : Char :=
  match Text.decimalValue? c with
  | some d => Nat.digitChar d
  | none => c

/-- A real number in decimal notation or as a word, with white space around it. -/
def read? (s : String) : Option Binary64 := do
  let cs ← dropUnderscores? ((trimNumber s.toList).map asciiDigit)
  let (negative, body) := match cs with
    | '-' :: rest => (true, rest)
    | '+' :: rest => (false, rest)
    | _ => (false, cs)
  match readWord? negative body with
  | some x => some x
  | none => (readUnsigned? body).map fun (digits, e) ↦ Binary64.ofDecimal negative digits e

/-! ## Printing -/

/-- A power of ten with a sign and at least two digits. -/
def exponentText (e : Int) : String :=
  let ds := Nat.toDigits 10 e.natAbs
  (if e < 0 then "e-" else "e+") ++ String.ofList (List.leftpad 2 '0' ds)

/-- Digits with the leading one at the place `top`, in positional notation or with an exponent. -/
def layout (digits : List Char) (top : Int) : String :=
  if top < -4 || top ≥ 16 then
    match digits with
    | [] => "0.0"
    | [d] => String.singleton d ++ exponentText top
    | d :: rest => String.ofList (d :: '.' :: rest) ++ exponentText top
  else if top < 0 then
    String.ofList ('0' :: '.' :: List.replicate ((-top).toNat - 1) '0' ++ digits)
  else
    let whole := digits.take (top.toNat + 1)
    let fraction := digits.drop (top.toNat + 1)
    String.ofList (List.rightpad (top.toNat + 1) '0' whole ++ '.' ::
      (if fraction.isEmpty then ['0'] else fraction))

def print : Binary64 → String
  | .notANumber => "nan"
  | .infinite negative => if negative then "-inf" else "inf"
  | .finite negative m q =>
    let body :=
      if m = 0 then "0.0"
      else
        let (d, p) := Binary64.shortest m q
        let ds := Nat.toDigits 10 d
        let stripped := (ds.reverse.dropWhile (· == '0')).reverse
        layout stripped (p + ds.length - 1)
    if negative then "-" ++ body else body

end RealText

end XrBindings.Number
