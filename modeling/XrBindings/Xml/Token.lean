import XrBindings.Xml.NameChar
import XrBindings.Xml.Scanner

/-!
# Tokens of content

Content is cut into tags, text and references to entities. Names with a colon are kept in two
parts; what a prefix stands for is decided later. The value of an attribute is kept as pieces,
because white space that is written differs from white space that is referred to by number.
-/

namespace XrBindings.Xml

/-- A name with an optional namespace prefix. -/
structure QName where
  space : Option (List Char)
  base : List Char
  deriving DecidableEq, Repr

/-- A piece of an attribute value or of an entity. -/
inductive Piece where
  /-- A character that is written out. -/
  | literal (c : Char)
  /-- A character that is referred to by number or by a predefined name. -/
  | numbered (c : Char)
  /-- A reference to a declared entity. -/
  | entity (name : List Char)
  deriving DecidableEq, Repr

/-- A token of content. -/
inductive Token where
  | startTag (name : QName) (attributes : List (QName × List Piece)) (closed : Bool)
  | endTag (name : QName)
  /-- Text that is written out. -/
  | text (cs : List Char)
  /-- Text from a character section or a reference by number, which may not stand outside the
  root element even if it is blank. -/
  | data (cs : List Char)
  | entity (name : List Char)
  deriving DecidableEq, Repr

namespace Token

open Scanner

/-! ## Names and references -/

/-- A name without a colon. -/
def ncName : Scanner (List Char) := do
  let c ← charOf isNameStart
  let rest ← Scanner.takeWhile isNameChar
  return c :: rest

/-- The rest of a name whose first character has been read. -/
def qNameFrom (first : Char) : Scanner QName := do
  let rest ← Scanner.takeWhile isNameChar
  match ← peek? with
  | some ':' =>
    char ':'
    let base ← ncName
    return ⟨some (first :: rest), base⟩
  | _ => return ⟨none, first :: rest⟩

def qName : Scanner QName := do
  let c ← charOf isNameStart
  qNameFrom c

def blanks : Scanner Unit := do let _ ← Scanner.takeWhile isXmlBlank

/-- Skip white space, of which there has to be some. -/
def blanks1 : Scanner Unit := do let _ ← takeWhile1 isXmlBlank

/-- The value of a hexadecimal digit in ASCII. -/
def hexDigit (c : Char) : Nat :=
  if c.isDigit then c.toNat - 48 else if c.toNat < 97 then c.toNat - 55 else c.toNat - 87

def isHexDigit (c : Char) : Bool := c.isDigit || ('a' ≤ c && c ≤ 'f') || ('A' ≤ c && c ≤ 'F')

/-- The character of a number, if a document may hold it. -/
def charOfNumber? (n : Nat) : Option Char :=
  if h : n.isValidChar then
    let c := Char.ofNatAux n h
    if isXmlChar c then some c else none
  else none

/-- The character of a predefined entity. -/
def predefined? (name : List Char) : Option Char :=
  match String.ofList name with
  | "lt" => some '<'
  | "gt" => some '>'
  | "amp" => some '&'
  | "apos" => some '\''
  | "quot" => some '"'
  | _ => none

/-- A reference by number, after `&#`. -/
def numericReference : Scanner Char := do
  let (base, digits) ← do
    if ← tryLiteral ['x'] then
      let ds ← takeWhile1 isHexDigit
      pure (16, ds)
    else
      let ds ← takeWhile1 Char.isDigit
      pure (10, ds)
  char ';'
  ofOption (charOfNumber? (digits.foldl (fun n d ↦ base * n + hexDigit d) 0))

/-- The name in a reference by name, after the ampersand. -/
def namedReference : Scanner (List Char) := do
  let name ← ncName
  char ';'
  return name

/-- A reference, after its ampersand. -/
def reference : Scanner Piece := do
  if ← tryLiteral ['#'] then .numbered <$> numericReference
  else
    let name ← namedReference
    return match predefined? name with
      | some c => .numbered c
      | none => .entity name

/-! ## Tags -/

/-- One piece of a value whose end is the character `quote`, if there is one. -/
def valuePiece (quote : Option Char) (c : Char) : Option (Scanner Piece) :=
  if some c == quote then none
  else if c == '&' then some reference
  else if c == '<' then some refuse
  else some do
    require (isXmlChar c)
    return .literal c

def quotedValue (quote : Char) : Scanner (List Piece) := do
  let pieces ← many (valuePiece (some quote))
  char quote
  return pieces

def attributePair : Scanner (QName × List Piece) := do
  let name ← qName
  blanks
  char '='
  blanks
  let quote ← charOf fun c ↦ c == '"' || c == '\''
  let value ← quotedValue quote
  return (name, value)

/-- White space, and the attribute that follows it if one does. -/
def spacedAttribute (c : Char) : Option (Scanner (Option (QName × List Piece))) :=
  if isXmlBlank c then some do
    blanks
    match ← peek? with
    | some d => if isNameStart d then some <$> attributePair else return none
    | none => return none
  else none

/-- A start tag, after its opening bracket. -/
def startTagBody : Scanner Token := do
  let name ← qName
  let attributes ← many spacedAttribute
  let closed ← tryLiteral ['/']
  char '>'
  return .startTag name (attributes.filterMap id) closed

/-- An end tag, after its slash. -/
def endTagBody : Scanner Token := do
  let name ← qName
  blanks
  char '>'
  return .endTag name

/-! ## Other markup -/

/-- A comment, after `<!--`. Two hyphens occur only at its end. -/
def comment : Scanner Unit := do
  let _ ← skipPast ['-', '-'] isXmlChar
  char '>'

/-- A processing instruction, after `<?`. The name `xml` is reserved in either case. -/
def instruction : Scanner Unit := do
  let target ← ncName
  require (target.map Char.toLower != ['x', 'm', 'l'])
  match ← peek? with
  | some '?' => literal ['?', '>']
  | _ =>
    let _ ← charOf isXmlBlank
    let _ ← skipPast ['?', '>'] isXmlChar

/-- Markup that starts with `<!` inside an element: a comment or a character section. -/
def declaration : Scanner Token := do
  if ← tryLiteral ['-', '-'] then
    comment
    return .text []
  else
    literal ['[', 'C', 'D', 'A', 'T', 'A', '[']
    let cs ← skipPast [']', ']', '>'] isXmlChar
    return .data cs

/-- A character that stands for itself wherever it occurs in content. -/
def isPlain (c : Char) : Bool := isXmlChar c && c != '<' && c != '&' && c != ']'

/-- The token that starts with a given character. -/
def content (c : Char) : Option (Scanner Token) :=
  if c == '<' then some do
    match ← peek? with
    | some '/' => char '/'; endTagBody
    | some '!' => char '!'; declaration
    | some '?' => char '?'; instruction; return .text []
    | _ => startTagBody
  else if c == '&' then some do
    match ← reference with
    | .entity name => return .entity name
    | .numbered c | .literal c => return .data [c]
  else if c == ']' then some do
    let ends ← tryLiteral [']', '>']
    require !ends
    return .text [c]
  else if isPlain c then some do
    let cs ← Scanner.takeWhile isPlain
    return .text (c :: cs)
  else none

def ofChars? (cs : List Char) : Option (List Token) := runAll (many content) cs

/-- All pieces of the replacement text of an entity, as an attribute value sees it. -/
def piecesOfChars? (cs : List Char) : Option (List Piece) := runAll (many (valuePiece none)) cs

/-- Line ends are single line feeds: a return stands for one, alone or before a line feed. -/
def normalizeLines : List Char → List Char
  | '\r' :: '\n' :: rest => '\n' :: normalizeLines rest
  | '\r' :: rest => '\n' :: normalizeLines rest
  | c :: rest => c :: normalizeLines rest
  | [] => []

end Token

end XrBindings.Xml
