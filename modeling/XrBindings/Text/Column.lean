/-!
# Columns and counts

Padding to a width, which counts characters, and numbers with a comma between groups of three
digits.
-/

namespace XrBindings.Text

/-- Pad with blanks on the right. -/
def padRight (width : Nat) (s : String) : String :=
  String.ofList (s.toList ++ List.replicate (width - s.length) ' ')

/-- Pad with blanks on the left. -/
def padLeft (width : Nat) (s : String) : String :=
  String.ofList (List.replicate (width - s.length) ' ' ++ s.toList)

/-- Put a comma after every third digit; the least significant digit comes first. -/
def groupDigits : List Char → List Char
  | a :: b :: c :: d :: rest => a :: b :: c :: ',' :: groupDigits (d :: rest)
  | short => short

/-- A number with a comma between groups of three digits. -/
def grouped (n : Int) : String :=
  (if n < 0 then "-" else "")
    ++ String.ofList (groupDigits (Nat.toDigits 10 n.natAbs).reverse).reverse

end XrBindings.Text
