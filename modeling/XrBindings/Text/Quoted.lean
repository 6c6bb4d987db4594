import XrBindings.Text.Printable

/-!
# Quoted texts

The form in which a message shows a text found in a document. Single quotes surround it, unless
it holds a single quote and no double quote. The quote in use and the backslash are escaped, and
so is everything without a glyph, so that the message stays on one line and can be read back.
-/

namespace XrBindings.Text

/-- The last `k` hexadecimal digits of `n`, most significant first. -/
def hexDigits : Nat → Nat → List Char
  | 0, _ => []
  | k + 1, n => hexDigits k (n / 16) ++ [Nat.digitChar (n % 16)]

/-- One character of a quoted text. -/
def quotedChar (quote c : Char) : List Char :=
  if c == quote || c == '\\' then ['\\', c]
  else if c == '\n' then ['\\', 'n']
  else if c == '\r' then ['\\', 'r']
  else if c == '\t' then ['\\', 't']
  else if isPrintable c then [c]
  else if c.toNat < 0x100 then '\\' :: 'x' :: hexDigits 2 c.toNat
  else if c.toNat < 0x10000 then '\\' :: 'u' :: hexDigits 4 c.toNat
  else '\\' :: 'U' :: hexDigits 8 c.toNat

/-- The quote that surrounds a text. -/
def quoteFor (s : String) : Char :=
  if s.toList.contains '\'' && !s.toList.contains '"' then '"' else '\''

/-- A text in quotes, with escapes. -/
def quoted (s : String) : String :=
  String.ofList (quoteFor s :: s.toList.flatMap (quotedChar (quoteFor s)) ++ [quoteFor s])

end XrBindings.Text
