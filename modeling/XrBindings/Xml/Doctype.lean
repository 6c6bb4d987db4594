import XrBindings.Xml.Entity

/-!
# Document type declarations

The declarations at the head of a document. Two kinds of them have a meaning for a reader that
does not validate: entities, and attribute lists, which give default values and say which
attributes hold lists of names. Element and notation declarations only have to be in good form.

Declarations outside the document are not read. Once a reference to such declarations is met, the
declarations after it do not count, unless the document says that it stands alone.
-/

namespace XrBindings.Xml

/-- What the declarations say about an attribute of an element. -/
structure AttributeRule where
  element : QName
  attr : QName
  /-- The value is a list of names. -/
  tokenized : Bool
  /-- The value of an attribute that is not given. -/
  default? : Option (List Char)

/-- The declarations of a document that matter to its content. -/
structure Doctype where
  entities : Entities := {}
  rules : List AttributeRule := []
  /-- Declarations still count. -/
  reading : Bool := true

namespace Doctype

open Scanner Token

/-! ## Parts of declarations -/

def isPublicChar (c : Char) : Bool :=
  c.isAlphanum || " \n\r-'()+,./:=?;!*#@$_%".toList.contains c

def quotedText (p : Char → Bool) : Scanner Unit := do
  let quote ← charOf fun c ↦ c == '"' || c == '\''
  let _ ← Scanner.takeWhile fun c ↦ c != quote && p c
  char quote

/-- The place of something outside the document; a notation may have a public name only. -/
def externalId (publicOnly : Bool) : Scanner Unit := do
  if ← tryLiteral "SYSTEM".toList then
    blanks1
    quotedText isXmlChar
  else
    literal "PUBLIC".toList
    blanks1
    quotedText isPublicChar
    let before ← Scanner.takeWhile isXmlBlank
    match ← peek? with
    | some c =>
      if (c == '"' || c == '\'') && !before.isEmpty then quotedText isXmlChar
      else require publicOnly
    | none => refuse

/-- One round of the value of an entity. References by number are resolved at once, references by
name are kept. -/
def entityChar (quote c : Char) : Option (Scanner (List Char)) :=
  if c == quote then none
  else if c == '&' then some do
    if ← tryLiteral ['#'] then
      let d ← numericReference
      return [d]
    else
      let name ← namedReference
      return '&' :: name ++ [';']
  else some do
    require (isXmlChar c && c != '%')
    return [c]

/-- The value of an entity, in quotes. -/
def entityValue : Scanner (List Char) := do
  let quote ← charOf fun c ↦ c == '"' || c == '\''
  let parts ← many (entityChar quote)
  char quote
  return parts.flatten

/-- Whether a quote comes next. -/
def quoteNext : Scanner Bool := do
  let c ← peek?
  return c == some '"' || c == some '\''

/-- The end of a declaration. -/
def close : Scanner Unit := do
  blanks
  char '>'

/-! ## Declarations -/

/-- The default of an attribute as it is written. -/
abbrev RawRule := QName × Bool × Option (List Piece)

/-- A declaration. -/
inductive Declaration where
  | entity (name : List Char) (replacement : Replacement)
  | attributes (element : QName) (rules : List RawRule)
  /-- A reference to declarations that are not read. -/
  | unread
  | other

/-- An entity declaration, after its keyword. Entities of declarations have no use here. -/
def entity : Scanner Declaration := do
  blanks1
  let inside ← tryLiteral ['%']
  if inside then blanks1
  let name ← ncName
  blanks1
  let replacement ← do
    if ← quoteNext then .internal <$> entityValue
    else
      externalId false
      let gap ← Scanner.takeWhile isXmlBlank
      if !gap.isEmpty && !inside then
        if ← tryLiteral "NDATA".toList then
          blanks1
          let _ ← ncName
      pure .outside
  close
  return if inside then .other else .entity name replacement

/-- A name token, or a name with a prefix, in an enumeration. -/
def nameToken : Scanner Unit := do let _ ← takeWhile1 fun c ↦ isNameChar c || c == ':'

/-- The rest of an enumeration, after its opening parenthesis. -/
def enumeration : Scanner Unit := do
  blanks
  nameToken
  let _ ← many fun c ↦
    if isXmlBlank c then some (pure ())
    else if c == '|' then some (do blanks; nameToken)
    else none
  char ')'

/-- The types of attributes that hold names. -/
def nameTypes : List String :=
  ["ID", "IDREF", "IDREFS", "ENTITY", "ENTITIES", "NMTOKEN", "NMTOKENS"]

/-- The type of an attribute: whether its value is a list of names. -/
def attributeType : Scanner Bool := do
  if ← tryLiteral ['('] then
    enumeration
    return true
  else
    let word ← ncName
    if word == "CDATA".toList then return false
    else if word == "NOTATION".toList then
      blanks1
      char '('
      enumeration
      return true
    else
      require (nameTypes.contains (String.ofList word))
      return true

def attributeDefault : Scanner (Option (List Piece)) := do
  let value : Scanner (List Piece) := do
    let quote ← charOf fun c ↦ c == '"' || c == '\''
    quotedValue quote
  if ← tryLiteral ['#'] then
    let word ← ncName
    if word == "FIXED".toList then
      blanks1
      some <$> value
    else
      require (word == "REQUIRED".toList || word == "IMPLIED".toList)
      return none
  else some <$> value

def attributeRule : Scanner RawRule := do
  let name ← qName
  blanks1
  let tokenized ← attributeType
  blanks1
  let default? ← attributeDefault
  return (name, tokenized, default?)

/-- An attribute list, after its keyword. -/
def attributeList : Scanner Declaration := do
  blanks1
  let element ← qName
  let rules ← many fun c ↦
    if isXmlBlank c then some do
      blanks
      match ← peek? with
      | some d => if isNameStart d then some <$> attributeRule else return none
      | none => return none
    else none
  char '>'
  return .attributes element (rules.filterMap id)

/-! ## Content models -/

/-- A token of a content model. -/
inductive ModelToken where
  | opening | closing (repeated : Option Char) | separator (c : Char)
  | name (repeated : Option Char) | text
  deriving DecidableEq

def repetition : Scanner (Option Char) := do
  match ← peek? with
  | some c => if c == '?' || c == '*' || c == '+' then some <$> charOf (· == c) else return none
  | none => return none

/-- The token of a content model that starts with a given character. -/
def modelToken (c : Char) : Option (Scanner (Option ModelToken)) :=
  if isXmlBlank c then some (pure none)
  else if c == '(' then some (pure (some .opening))
  else if c == ')' then some do return some (.closing (← repetition))
  else if c == '|' || c == ',' then some (pure (some (.separator c)))
  else if c == '#' then some do
    literal "PCDATA".toList
    return some .text
  else if isNameStart c then some do
    let _ ← qNameFrom c
    return some (.name (← repetition))
  else none

/-- Nested groups with one separator each. `groups` holds the separators of the open groups, and
`item` says whether an item has to come. -/
def isModel (groups : List (Option Char)) (item : Bool) : List ModelToken → Bool
  | [] => false
  | .opening :: rest => item && isModel (none :: groups) true rest
  | .name _ :: rest => item && isModel groups false rest
  | .separator c :: rest => match groups with
    | g :: outer => !item && (g.isNone || g == some c) && isModel (some c :: outer) true rest
    | [] => false
  | .closing _ :: rest => match groups with
    | [_] => !item && rest.isEmpty
    | _ :: outer => !item && isModel outer false rest
    | [] => false
  | .text :: _ => false

/-- A list of names that may be mixed with text; it is repeated unless it holds text alone. -/
def isMixed : List ModelToken → Bool
  | .opening :: .text :: rest => rest == [.closing none] || alternatives rest
  | _ => false
where
  /-- Names, each after a bar, and the closing of the list. -/
  alternatives : List ModelToken → Bool
    | [.closing (some '*')] => true
    | .separator '|' :: .name none :: rest => alternatives rest
    | _ => false

/-- An element declaration, after its keyword. -/
def elementDeclaration : Scanner Declaration := do
  blanks1
  let _ ← qName
  blanks1
  match ← peek? with
  | some '(' =>
    let tokens ← many modelToken
    let model := tokens.filterMap id
    require (isMixed model || (model.head? == some .opening && isModel [] true model))
  | _ =>
    let word ← ncName
    require (word == "EMPTY".toList || word == "ANY".toList)
  close
  return .other

/-- A notation declaration, after its keyword. -/
def notationDeclaration : Scanner Declaration := do
  blanks1
  let _ ← ncName
  blanks1
  externalId true
  close
  return .other

/-! ## The whole declaration -/

/-- A round of the declarations inside the document. -/
def round (c : Char) : Option (Scanner Declaration) :=
  if isXmlBlank c then some (pure .other)
  else if c == '%' then some do
    let _ ← namedReference
    return .unread
  else if c == '<' then some do
    if ← tryLiteral ['?'] then
      instruction
      return .other
    else
      char '!'
      if ← tryLiteral ['-', '-'] then
        comment
        return .other
      else if ← tryLiteral "ENTITY".toList then entity
      else if ← tryLiteral "ATTLIST".toList then attributeList
      else if ← tryLiteral "ELEMENT".toList then elementDeclaration
      else
        literal "NOTATION".toList
        notationDeclaration
  else none

/-- The value that an attribute has by default. -/
def defaultValue (es : Entities) (tokenized : Bool) (pieces : List Piece) : Option (List Char) :=
  (es.expandValue es.names pieces).map fun v ↦
    if tokenized then Entities.collapseBlanks v else v

def apply (standalone : Bool) (d : Doctype) : Declaration → Option Doctype
  | .other => some d
  | .unread =>
    some { d with
      entities := { d.entities with incomplete := !standalone }
      reading := d.reading && standalone }
  | .entity name replacement =>
    some (if d.reading then { d with entities := d.entities.declare name replacement } else d)
  | .attributes element rules =>
    if d.reading then do
      let new ← rules.mapM fun (name, tokenized, default?) ↦ do
        let value ← default?.mapM (defaultValue d.entities tokenized)
        return ({ element, attr := name, tokenized, default? := value } : AttributeRule)
      return { d with rules := d.rules ++ new }
    else some d

/-- A document type declaration, after its keyword. -/
def scan (standalone : Bool) : Scanner Doctype := do
  blanks1
  let _ ← qName
  let gap ← Scanner.takeWhile isXmlBlank
  let c ← peek?
  let outside := c != some '[' && c != some '>'
  if outside then
    require !gap.isEmpty
    externalId false
    blanks
  let declarations ← do
    if ← tryLiteral ['['] then
      let ds ← many round
      char ']'
      pure ds
    else pure []
  close
  let start : Doctype := { entities := { incomplete := outside && !standalone } }
  ofOption (declarations.foldlM (apply standalone) start)

end Doctype

end XrBindings.Xml
