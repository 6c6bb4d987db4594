import XrBindings.Text.Blank

/-!
# Trimming, splitting and searching

Texts are cut as lists of characters, where every operation is a list function with its lemmas;
the `String` forms only wrap and unwrap. Positions count characters.
-/

namespace XrBindings.Text

/-! ## Ends -/

/-- Drop the characters of a class from the end. -/
def dropEndWhile (p : Char → Bool) (cs : List Char) : List Char := (cs.reverse.dropWhile p).reverse

/-- Drop white space at both ends. -/
def trimChars (cs : List Char) : List Char := dropEndWhile isBlank (cs.dropWhile isBlank)

theorem length_dropWhile_le (p : Char → Bool) (cs : List Char) :
    (cs.dropWhile p).length ≤ cs.length :=
  (List.dropWhile_sublist p).length_le

theorem length_dropEndWhile_le (p : Char → Bool) (cs : List Char) :
    (dropEndWhile p cs).length ≤ cs.length := by
  simpa [dropEndWhile] using length_dropWhile_le p cs.reverse

theorem length_trimChars_le (cs : List Char) : (trimChars cs).length ≤ cs.length :=
  Nat.le_trans (length_dropEndWhile_le _ _) (length_dropWhile_le _ _)

def trim (s : String) : String := String.ofList (trimChars s.toList)

/-- Drop white space at the end. -/
def trimEnd (s : String) : String := String.ofList (dropEndWhile isBlank s.toList)

def startsWith (s start : String) : Bool := start.toList.isPrefixOf s.toList

/-- The text ends with `final`. -/
def endsWith (s final : String) : Bool := final.toList.isSuffixOf s.toList

def dropFirst (n : Nat) (s : String) : String := String.ofList (s.toList.drop n)

def takeFirst (n : Nat) (s : String) : String := String.ofList (s.toList.take n)

def dropLast (n : Nat) (s : String) : String := String.ofList (s.toList.take (s.length - n))

def withoutStart (start s : String) : String :=
  if startsWith s start then dropFirst start.length s else s

/-! ## Pieces -/

/-- The pieces between the occurrences of a character; there is always at least one. -/
def splitAtChar (sep : Char) (s : String) : List String :=
  (s.toList.splitOn sep).map String.ofList

/-- The words of a text, which are the pieces between blanks that are not empty. -/
def words (s : String) : List String :=
  ((s.toList.splitOnP isBlank).filter fun w ↦ !w.isEmpty).map String.ofList

/-- The trimmed pieces of a list whose items are separated by commas. -/
def commaList (s : String) : List String := (splitAtChar ',' s).map trim

/-- Join texts with a separator between them. -/
def joinWith (sep : String) (pieces : List String) : String := String.intercalate sep pieces

/-! ## Occurrences -/

/-- The position of the first occurrence of `needle`. -/
def findChars? (needle : List Char) : List Char → Option Nat
  | [] => if needle.isEmpty then some 0 else none
  | c :: rest =>
    if needle.isPrefixOf (c :: rest) then some 0 else (findChars? needle rest).map (· + 1)

/-- The position of the last occurrence of `needle`. -/
def findLastChars? (needle : List Char) : List Char → Option Nat
  | [] => if needle.isEmpty then some 0 else none
  | c :: rest => match findLastChars? needle rest with
    | some n => some (n + 1)
    | none => if needle.isPrefixOf (c :: rest) then some 0 else none

/-- `needle` occurs in the text. -/
def hasText (s needle : String) : Bool := (findChars? needle.toList s.toList).isSome

end XrBindings.Text
