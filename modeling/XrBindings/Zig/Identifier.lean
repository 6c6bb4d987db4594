/-!
# Zig identifiers

Any text can be an identifier in Zig. One that is a plain word, and neither a keyword nor the name
of a primitive type, is written as it is; any other is written between `@"` and `"`, where quotes
and backslashes are escaped and everything outside printable ASCII is given by its UTF-8 bytes.
-/

namespace XrBindings.Zig

/-- Names that stand for types or values of the language. The last four are not primitive types,
but are rejected as plain identifiers too. -/
def primitives : List String :=
  ["void", "comptime_float", "comptime_int", "bool", "isize", "usize", "f16", "f32", "f64",
   "f128", "noreturn", "type", "anyerror", "c_short", "c_ushort", "c_int", "c_uint", "c_long",
   "c_ulong", "c_longlong", "c_ulonglong", "c_longdouble", "undefined", "true", "false", "null"]

/-- The keywords of the language. -/
def keywords : List String :=
  ["addrspace", "align", "allowzero", "and", "anyframe", "anytype", "asm", "async", "await",
   "break", "callconv", "catch", "comptime", "const", "continue", "defer", "else", "enum",
   "errdefer", "error", "export", "extern", "fn", "for", "if", "inline", "linksection", "noalias",
   "noinline", "nosuspend", "opaque", "or", "orelse", "packed", "pub", "resume", "return",
   "struct", "suspend", "switch", "test", "threadlocal", "try", "union", "unreachable",
   "usingnamespace", "var", "volatile", "while"]

/-- The name of an integer type of any width: `i` or `u` and digits. -/
def isIntegerType (cs : List Char) : Bool :=
  match cs with
  | [] => false
  | c :: digits => (c == 'i' || c == 'u') && !digits.isEmpty && digits.all Char.isDigit

def isPrimitive (name : String) : Bool := isIntegerType name.toList || primitives.contains name

/-- A word of ASCII letters, digits and underscores that starts with no digit. -/
def isPlainWord (cs : List Char) : Bool :=
  match cs with
  | [] => false
  | c :: rest => (c.isAlpha || c == '_') && rest.all fun d ↦ d.isAlphanum || d == '_'

/-- The name is an identifier as it is, as far as the grammar goes. -/
def isValidIdentifier (name : String) : Bool :=
  isPlainWord name.toList && name != "_" && !keywords.contains name

def hexByte (b : UInt8) : List Char :=
  [Nat.digitChar (b.toNat / 16), Nat.digitChar (b.toNat % 16)]

/-- A character that stands for itself between the quotes. -/
def isPrintableAscii (c : Char) : Bool := ' ' ≤ c && c ≤ '~'

/-- A character between the quotes of an escaped identifier. -/
def quotedChar (c : Char) : List Char :=
  if c == '"' || c == '\\' then ['\\', c]
  else if isPrintableAscii c then [c]
  else (String.utf8EncodeChar c).flatMap fun b ↦ '\\' :: 'x' :: hexByte b

def quoteIdentifier (name : String) : String :=
  String.ofList ('@' :: '"' :: name.toList.flatMap quotedChar ++ ['"'])

def writeIdentifier (name : String) : String :=
  if isPrimitive name || !isValidIdentifier name then quoteIdentifier name else name

/-- Drop the backslash before each character that has one. A line feed cannot be escaped. -/
def unescape : List Char → List Char
  | [] => []
  | ['\\'] => ['\\']
  | '\\' :: c :: rest =>
    if c == '\n' then '\\' :: '\n' :: unescape rest else c :: unescape rest
  | c :: rest => c :: unescape rest

/-- The text inside an escaped identifier; any other text is left alone, so that nothing is
escaped twice. -/
def unwrapIdentifier (name : String) : String :=
  match name.toList with
  | '@' :: '"' :: inner =>
    if inner.getLast? == some '"' then String.ofList (unescape inner.dropLast) else name
  | _ => name

end XrBindings.Zig
