import XrBindings.Text.CodeRange

/-!
# Blank characters

White space in the sense of Unicode: the characters whose bidirectional class is a separator or
white space, or whose category is a space separator. The four information separators U+001C to
U+001F belong to it.
-/

namespace XrBindings.Text

/-- The code points of white space. -/
def blankRanges : CodeRanges :=
  [(0x9, 0xD), (0x1C, 0x20), (0x85, 0x85), (0xA0, 0xA0), (0x1680, 0x1680), (0x2000, 0x200A),
   (0x2028, 0x2029), (0x202F, 0x202F), (0x205F, 0x205F), (0x3000, 0x3000)]

/-- White space, as it is dropped at both ends of a name or a number. -/
def isBlank (c : Char) : Bool := blankRanges.contains c

/-- The white space of the C locale: blank, tab, line feed, vertical tab, form feed, return. -/
def isAsciiBlank (c : Char) : Bool := c == ' ' || (9 ≤ c.toNat && c.toNat ≤ 13)

end XrBindings.Text
