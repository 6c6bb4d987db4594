import XrBindings.Xml.Element

/-!
# Writing elements

The markup of an element together with the text after it, as messages show it. Namespaces are
declared on the outermost element under short prefixes: well-known ones keep their usual prefix,
and the others are numbered in the order in which they are met. The declarations are sorted by
prefix and stand before the attributes.
-/

namespace XrBindings.Xml

open XrBindings.Text

/-- Namespaces with a usual prefix. -/
def usualPrefixes : List (String × String) :=
  [("http://www.w3.org/XML/1998/namespace", "xml"),
   ("http://www.w3.org/1999/xhtml", "html"),
   ("http://www.w3.org/1999/02/22-rdf-syntax-ns#", "rdf"),
   ("http://schemas.xmlsoap.org/wsdl/", "wsdl"),
   ("http://www.w3.org/2001/XMLSchema", "xs"),
   ("http://www.w3.org/2001/XMLSchema-instance", "xsi"),
   ("http://purl.org/dc/elements/1.1/", "dc")]

/-- The namespace and the local part of a name, if it has a namespace. -/
def splitName? (name : String) : Option (String × String) :=
  match name.toList with
  | '{' :: rest =>
    (findLastChars? ['}'] rest).map fun i ↦
      (String.ofList (rest.take i), String.ofList (rest.drop (i + 1)))
  | _ => none

/-- The names of an element and everything inside it, in document order. -/
def Element.names : Element → List String
  | ⟨tag, attributes, _, children, _⟩ => tag :: attributes.map Prod.fst ++ ofChildren children
where
  /-- The names of a list of elements. -/
  ofChildren : List Element → List String
    | [] => []
    | c :: rest => c.names ++ ofChildren rest

/-- Prefixes for the namespaces of names. -/
def choosePrefixes (names : List String) : List (String × String) :=
  names.foldl (fun chosen name ↦ match splitName? name with
    | none => chosen
    | some (uri, _) =>
      if (chosen.lookup uri).isSome then chosen
      else
        let short := (usualPrefixes.lookup uri).getD ("ns" ++ toString chosen.length)
        if short == "xml" then chosen else chosen ++ [(uri, short)]) []

/-- A name as it is written, given the prefixes. -/
def writtenName (prefixes : List (String × String)) (name : String) : String :=
  match splitName? name with
  | none => name
  | some (uri, base) =>
    match (prefixes.lookup uri).or (usualPrefixes.lookup uri) with
    | some short => short ++ ":" ++ base
    | none => name

def textChar (c : Char) : List Char :=
  match c with
  | '&' => "&amp;".toList
  | '<' => "&lt;".toList
  | '>' => "&gt;".toList
  | _ => [c]

def valueChar (c : Char) : List Char :=
  match c with
  | '"' => "&quot;".toList
  | '\r' => "&#13;".toList
  | '\n' => "&#10;".toList
  | '\t' => "&#09;".toList
  | _ => textChar c

/-- Text between tags. -/
def writtenText (s : String) : String := String.ofList (s.toList.flatMap textChar)

def writtenAttribute (name value : String) : String :=
  " " ++ name ++ "=\"" ++ String.ofList (value.toList.flatMap valueChar) ++ "\""

/-- An element and the text after it; `declarations` stand before its attributes. -/
def Element.written (prefixes : List (String × String)) (declarations : String) :
    Element → String
  | ⟨tag, attributes, text, children, tail⟩ =>
    let name := writtenName prefixes tag
    let start := "<" ++ name ++ declarations ++
      String.join (attributes.map fun a ↦ writtenAttribute (writtenName prefixes a.1) a.2)
    let body :=
      if text.isEmpty && children.isEmpty then " />"
      else ">" ++ writtenText text ++ ofChildren prefixes children ++ "</" ++ name ++ ">"
    start ++ body ++ writtenText tail
where
  /-- A list of elements, each with the text after it. -/
  ofChildren (prefixes : List (String × String)) : List Element → String
    | [] => ""
    | c :: rest => c.written prefixes "" ++ ofChildren prefixes rest

/-- The markup of an element and the text after it. -/
def Element.markup (e : Element) : String :=
  let prefixes := choosePrefixes e.names
  let sorted := prefixes.mergeSort fun a b ↦ decide (a.2 ≤ b.2)
  e.written prefixes (String.join (sorted.map fun p ↦ writtenAttribute ("xmlns:" ++ p.2) p.1))

end XrBindings.Xml
