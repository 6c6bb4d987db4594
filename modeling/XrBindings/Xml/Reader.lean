import XrBindings.Xml.Doctype
import XrBindings.Xml.Element
import XrBindings.Xml.Encoding
import XrBindings.Xml.Namespace

/-!
# Reading documents

From bytes to a tree. A document is one element, with an optional declaration of the language and
an optional document type declaration before it; comments, processing instructions and blanks may
stand around it. Everything that is not well-formed is refused, without saying where.
-/

namespace XrBindings.Xml

/-- Why a document cannot be read. -/
inductive ReadError where
  | malformed
  | unknownEncoding
  deriving DecidableEq, Repr

/-! ## The XML declaration -/

structure XmlDeclaration where
  encoding? : Option String := none
  standalone : Bool := false

namespace XmlDeclaration

open Scanner Token

def isValueChar (c : Char) : Bool := c.isAlphanum || c == '.' || c == '-' || c == '_'

def setting : Scanner (String × String) := do
  let name ← takeWhile1 Char.isAlpha
  blanks
  char '='
  blanks
  let quote ← charOf fun c ↦ c == '"' || c == '\''
  let value ← Scanner.takeWhile isValueChar
  char quote
  return (String.ofList name, String.ofList value)

/-- Blanks, and the setting that follows them if one does. -/
def spacedSetting (c : Char) : Option (Scanner (Option (String × String))) :=
  if isXmlBlank c then some do
    blanks
    match ← peek? with
    | some _ => some <$> setting
    | none => return none
  else none

/-- Settings in their order: the version, then the encoding, then whether the document stands
alone, the last two if they are given. -/
def ofSettings? : List (String × String) → Option XmlDeclaration
  | ("version", _) :: rest =>
    match rest with
    | ("encoding", e) :: rest =>
      if e.toList.head?.any Char.isAlpha then
        (ofStandalone? rest).map fun standalone ↦ { encoding? := some e, standalone }
      else none
    | _ => (ofStandalone? rest).map fun standalone ↦ { standalone }
  | _ => none
where
  /-- Whether the document stands alone. -/
  ofStandalone? : List (String × String) → Option Bool
    | [] => some false
    | [("standalone", "yes")] => some true
    | [("standalone", "no")] => some false
    | _ => none

def scan : Scanner XmlDeclaration := do
  if ← tryLiteral "<?xml".toList then
    let body ← skipPast ['?', '>'] isXmlChar
    let settings ← ofOption (runAll (many spacedSetting) body)
    ofOption (ofSettings? (settings.filterMap id))
  else return {}

/-- Whether a text begins with an XML declaration, and not with an instruction of a longer name. -/
def comesFirst (cs : List Char) : Bool :=
  match cs with
  | '<' :: '?' :: 'x' :: 'm' :: 'l' :: c :: _ => isXmlBlank c || c == '?'
  | _ => false

end XmlDeclaration

/-! ## The tree -/

/-- An element that is open: its name as written and in full, its attributes, the scope around it,
and what precedes it in its parent, last first. -/
structure Frame where
  name : QName
  tag : String
  attributes : List (String × String)
  outer : Scope
  before : List Node

def Frame.close (f : Frame) (content : List Node) : Node :=
  let (text, children) := Node.assemble content.reverse
  .element {
    tag := f.tag, attributes := f.attributes
    text := String.ofList text, children, tail := "" }

/-- The attributes of an element with their values, defaults included. -/
def attributeValues (dtd : Doctype) (closed : List (List Char)) (element : QName)
    (attributes : List (QName × List Piece)) : Option (List (QName × List Char)) := do
  let rules := dtd.rules.filter (·.element == element)
  let given ← attributes.mapM fun (name, pieces) ↦ do
    let value ← dtd.entities.expandValue closed pieces
    let tokenized := ((rules.find? (·.attr == name)).map (·.tokenized)).getD false
    return (name, if tokenized then Entities.collapseBlanks value else value)
  let names := given.map Prod.fst
  if names.eraseDups.length != names.length then none
  let defaults := rules.foldl (fun (known, found) rule ↦
    if known.contains rule.attr then (known, found)
    else (rule.attr :: known, match rule.default? with
      | some v => found ++ [(rule.attr, v)]
      | none => found)) (names, [])
  return given ++ defaults.2

def openElement (dtd : Doctype) (closed : List (List Char)) (scope : Scope) (before : List Node)
    (name : QName) (attributes : List (QName × List Piece)) : Option (Frame × Scope) := do
  let values ← attributeValues dtd closed name attributes
  let inner ← scope.extend values
  let tag ← inner.elementName? name
  let plain := values.filter fun a ↦ (Scope.bound? a.1).isNone
  let attrs ← plain.mapM fun (n, v) ↦ (inner.attributeName? n).map (·, String.ofList v)
  let names := attrs.map Prod.fst
  if names.eraseDups.length != names.length then none
  return ({ name, tag, attributes := attrs, outer := scope, before }, inner)

/-- Build the content of tokens. The elements of `stack` are open, innermost first; `nodes` is
the content of the innermost one so far, last first. Each entity has to balance its own tags. At
the outermost level of the document only blanks may stand beside the root. -/
def build (dtd : Doctype) (outermost : Bool) (closed : List (List Char)) (scope : Scope)
    (stack : List Frame) (nodes : List Node) (tokens : List Token) : Option (List Node) :=
  match tokens with
  | [] => if stack.isEmpty then some nodes.reverse else none
  | .startTag name attributes empty :: rest =>
    match openElement dtd closed scope nodes name attributes with
    | none => none
    | some (frame, inner) =>
      if empty then build dtd outermost closed scope stack (frame.close [] :: nodes) rest
      else build dtd outermost closed inner (frame :: stack) [] rest
  | .endTag name :: rest =>
    match stack with
    | [] => none
    | frame :: stack =>
      if frame.name == name then
        build dtd outermost closed frame.outer stack (frame.close nodes :: frame.before) rest
      else none
  | .text cs :: rest =>
    if outermost && stack.isEmpty && !cs.all isXmlBlank then none
    else build dtd outermost closed scope stack (.text cs :: nodes) rest
  | .data cs :: rest =>
    if outermost && stack.isEmpty then none
    else build dtd outermost closed scope stack (.text cs :: nodes) rest
  | .entity name :: rest =>
    if outermost && stack.isEmpty then none
    else match dtd.entities.declared.lookup name with
      | some (.internal text) =>
        if _h : name ∈ closed then
          match Token.ofChars? text with
          | none => none
          | some inner =>
            match build dtd false (closed.erase name) scope [] [] inner with
            | none => none
            | some content =>
              build dtd outermost closed scope stack (content.reverse ++ nodes) rest
        else none
      | _ => none
termination_by (closed.length, tokens.length)
decreasing_by
  all_goals first
    | (apply Prod.Lex.left
       rw [List.length_erase_of_mem _h]
       exact Nat.sub_lt (List.length_pos_of_mem _h) Nat.one_pos)
    | (apply Prod.Lex.right; simp)

/-! ## Documents -/

open Scanner Token in
/-- One thing before the root element: a blank, a comment, an instruction, or the document type
declaration. -/
def prologRound (standalone : Bool) (c : Char) (rest : List Char) :
    Option (Scanner (Option Doctype)) :=
  if isXmlBlank c then some (pure none)
  else match c, rest with
    | '<', '?' :: _ => some do
      char '?'
      instruction
      return none
    | '<', '!' :: _ => some do
      char '!'
      if ← tryLiteral ['-', '-'] then
        comment
        return none
      else
        literal "DOCTYPE".toList
        some <$> Doctype.scan standalone
    | _, _ => none

open Scanner in
/-- What stands before the root element. There is at most one document type declaration. -/
def prolog (standalone : Bool) : Scanner Doctype := do
  let found ← manyAhead (prologRound standalone)
  match found.filterMap id with
  | [] => return {}
  | [dtd] => return dtd
  | _ => refuse

/-- The root element of a text, after the XML declaration. -/
def ofChars? (standalone : Bool) (cs : List Char) : Option Element := do
  let (dtd, rest) ← prolog standalone (Token.normalizeLines cs)
  let tokens ← Token.ofChars? rest.1
  let nodes ← build dtd true dtd.entities.names Scope.initial [] [] tokens
  match (Node.assemble nodes).2 with
  | [root] => some { root with tail := "" }
  | _ => none

/-- Refuse a document that is not well-formed. -/
def orMalformed {α : Type} : Option α → Except ReadError α
  | some a => .ok a
  | none => .error .malformed

/-- The root element of a document. With `asUtf8` the bytes are known to be UTF-8, and the
encoding that the document declares for itself is not heeded. -/
def read (asUtf8 : Bool) (bytes : List UInt8) : Except ReadError Element := do
  let (shown, body) := Encoding.detect bytes
  -- the declaration is ASCII, so that one byte is one character wherever characters are narrow
  let start ←
    if shown.isWide then orMalformed (shown.decode? body) else .ok (Encoding.byteChars body)
  if XmlDeclaration.comesFirst start then
    let (declaration, rest) ← orMalformed (XmlDeclaration.scan start)
    let encoding ← match declaration.encoding? with
      | none => .ok shown
      | some name =>
        if asUtf8 then .ok shown
        else match shown.declared name with
          | .known e => .ok e
          | .contradiction => .error .malformed
          | .unknown => .error .unknownEncoding
    let chars ←
      if shown.isWide then .ok rest.1
      else orMalformed (encoding.decode? (body.drop (start.length - rest.1.length)))
    orMalformed (ofChars? declaration.standalone chars)
  else
    let chars ← orMalformed (shown.decode? body)
    orMalformed (ofChars? false chars)

def readText (text : String) : Except ReadError Element := read true text.toUTF8.toList

end XrBindings.Xml
