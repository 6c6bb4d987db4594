/-!
# Binary floating point

A double is a sign, a mantissa below `2 ^ 53` and a power of two, so that its value is
`mantissa * 2 ^ exponent` exactly. Reading a decimal rounds the exact rational to the nearest
double, a half going to the even mantissa. Printing takes the fewest decimal digits that read
back as the same double, and among those the nearest to it.

Everything runs on natural numbers: a rational is a numerator and a denominator, and no rounding
happens before the one step that is meant to round.
-/

namespace XrBindings.Number

/-- A double-precision number. -/
inductive Binary64 where
  | notANumber
  | infinite (negative : Bool)
  | finite (negative : Bool) (mantissa : Nat) (exponent : Int)
  deriving DecidableEq, Repr

namespace Binary64

/-! ## Rounding a rational -/

def minExponent : Int := -1074

def maxExponent : Int := 971

/-- `num / den / base ^ e` as a numerator and a denominator. -/
def dividedBy (base num den : Nat) (e : Int) : Nat × Nat :=
  if e ≥ 0 then (num, den * base.pow e.toNat) else (num * base.pow (-e).toNat, den)

/-- `n * base ^ e` as a numerator and a denominator. -/
def scaled (base n : Nat) (e : Int) : Nat × Nat := dividedBy base n 1 (-e)

/-- The integer nearest to `num / den`; a half goes to the even neighbour. -/
def roundQuotient (num den : Nat) : Nat :=
  let q := num / den
  let r := num % den
  if 2 * r > den || (2 * r == den && q % 2 == 1) then q + 1 else q

/-- The smallest mantissa with all its bits; a mantissa is below twice that. -/
def fullMantissa : Nat := Nat.pow 2 52

/-- The exponent at which a positive rational has a mantissa of 53 bits, or the smallest one. -/
def exponentFor (num den : Nat) : Int :=
  let guess : Int := (num.log2 : Int) - (den.log2 : Int) - 52
  let (n, d) := dividedBy 2 num den guess
  max minExponent (if n < fullMantissa * d then guess - 1 else guess)

/-- The double nearest to `num / den`. -/
def ofQuotient (negative : Bool) (num den : Nat) : Binary64 :=
  if num = 0 then finite negative 0 minExponent
  else
    let q := exponentFor num den
    let (n, d) := dividedBy 2 num den q
    let m := roundQuotient n d
    let (m, q) := if m = 2 * fullMantissa then (fullMantissa, q + 1) else (m, q)
    if q > maxExponent then infinite negative else finite negative m q

/-- The double nearest to `digits * 10 ^ e`. A number of at least 311 places is out of range, and
one below `10 ^ -330` is zero, whatever its digits; the powers themselves are then not built. -/
def ofDecimal (negative : Bool) (digits : Nat) (e : Int) : Binary64 :=
  let places : Int := (Nat.toDigits 10 digits).length
  if digits = 0 || places + e < -330 then finite negative 0 minExponent
  else if places + e > 310 then infinite negative
  else
    let (n, d) := scaled 10 digits e
    ofQuotient negative n d

/-! ## Shortest digits -/

/-- The open interval of reals that round to `m * 2 ^ q`, in quarters of `2 ^ q`. Below a power of
two the neighbours lie twice as close. -/
def roundingInterval (m : Nat) (q : Int) : Nat × Nat :=
  (if m = fullMantissa && q > minExponent then 4 * m - 1 else 4 * m - 2, 4 * m + 2)

/-- Whether `d * 10 ^ p` reads back as `m * 2 ^ q`. The ends of the interval belong to it when
the mantissa is even. -/
def readsBack (m : Nat) (q : Int) (d : Nat) (p : Int) : Bool :=
  let (low, high) := roundingInterval m q
  let (n, den) := scaled 10 d p
  -- compare `n / den` with `bound / 4 * 2 ^ q`
  let (left, right) := dividedBy 2 (4 * n) den q
  if m % 2 == 0 then low * right ≤ left && left ≤ high * right
  else low * right < left && left < high * right

/-- The exponent of the leading decimal digit of `num / den`, given that the rational is at least
`10 ^ -fuel`. -/
def leadingPlace (num den : Nat) : Nat → Int
  | 0 => (Nat.toDigits 10 (num / den)).length - 1
  | fuel + 1 =>
    if num ≥ den then (Nat.toDigits 10 (num / den)).length - 1
    else leadingPlace (num * 10) den fuel - 1

/-- The better of the two neighbours of a rational on the grid of `10 ^ p`, if one reads back. -/
def gridPoint? (m : Nat) (q : Int) (num den : Nat) (p : Int) : Option Nat :=
  let (n, d) := dividedBy 10 num den p
  let down := n / d
  let nearest := roundQuotient n d
  let other := if nearest = down then down + 1 else down
  if readsBack m q nearest p then some nearest
  else if readsBack m q other p then some other
  else none

/-- The fewest digits that read back: digits and power of ten. Seventeen always suffice. -/
def shortest (m : Nat) (q : Int) : Nat × Int :=
  let (num, den) := scaled 2 m q
  let top := leadingPlace num den 400
  let grids := (List.range 18).map fun (k : Nat) ↦ top - k
  (grids.findSome? fun p ↦ (gridPoint? m q num den p).map fun d ↦ (d, p)).getD (m, q)

end Binary64

end XrBindings.Number
