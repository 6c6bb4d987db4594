import XrBindings.Text.Cut

/-!
# Elements

A document as a tree. An element has the text before its first child and, after its own end, the
text up to its next sibling, so that all text of a document is found beside some element. Comments
and processing instructions leave no trace: the text on both sides of one is joined.

A name in a namespace is written `{uri}local`.
-/

namespace XrBindings.Xml

/-- An element and the text that follows it. -/
structure Element where
  tag : String
  /-- Names and values, in document order; no name stands twice. -/
  attributes : List (String × String)
  /-- The text before the first child. -/
  text : String
  children : List Element
  /-- The text after the element, up to its next sibling. -/
  tail : String
  deriving Inhabited

namespace Element

/-- The value of an attribute. -/
def get? (e : Element) (name : String) : Option String := e.attributes.lookup name

/-- The value of an attribute, if it is not empty. -/
def nonempty? (e : Element) (name : String) : Option String :=
  (e.get? name).filter fun v ↦ !v.isEmpty

def childrenNamed (e : Element) (tag : String) : List Element :=
  e.children.filter (·.tag == tag)

def child? (e : Element) (tag : String) : Option Element := e.children.find? (·.tag == tag)

/-- The grandchildren of a name under the children of a name. -/
def grandchildrenNamed (e : Element) (outer inner : String) : List Element :=
  (e.childrenNamed outer).flatMap (·.childrenNamed inner)

/-- All text inside the element, in document order. -/
def allText : Element → String
  | ⟨_, _, text, children, _⟩ => text ++ ofChildren children
where
  /-- All text inside and after the elements of a list. -/
  ofChildren : List Element → String
    | [] => ""
    | c :: rest => c.allText ++ c.tail ++ ofChildren rest

end Element

/-- A piece of content. -/
inductive Node where
  | text (cs : List Char)
  | element (e : Element)

/-- Content as the text before the first element, and the elements with the text after each. -/
def Node.assemble : List Node → List Char × List Element
  | [] => ([], [])
  | .text cs :: rest => let (before, elements) := assemble rest; (cs ++ before, elements)
  | .element e :: rest =>
    let (after, elements) := assemble rest
    ([], { e with tail := String.ofList after } :: elements)

end XrBindings.Xml
