import XrBindings.Xml.Token

/-!
# Namespaces

An attribute named `xmlns` binds the default namespace of the names inside its element, and one
with the prefix `xmlns` binds a prefix. A name whose prefix is bound to `uri` is written
`{uri}local`. The default namespace applies to elements and not to attributes.
-/

namespace XrBindings.Xml

def xmlNamespace : List Char := "http://www.w3.org/XML/1998/namespace".toList

def xmlnsNamespace : List Char := "http://www.w3.org/2000/xmlns/".toList

/-- Prefixes and what they stand for, innermost binding first; the default namespace has no
prefix, and an empty namespace is none. -/
abbrev Scope := List (Option (List Char) × List Char)

namespace Scope

def initial : Scope := [(some "xml".toList, xmlNamespace)]

/-- The prefix that an attribute binds, if it is a declaration of a namespace. -/
def bound? (name : QName) : Option (Option (List Char)) :=
  if name.space == some "xmlns".toList then some (some name.base)
  else if name == ⟨none, "xmlns".toList⟩ then some none
  else none

/-- Whether a prefix may be bound to a namespace. The two reserved ones go with their prefixes,
and only the default namespace can be taken away again. -/
def canBind (space : Option (List Char)) (uri : List Char) : Bool :=
  space != some "xmlns".toList
    && (space == some "xml".toList) == (uri == xmlNamespace)
    && uri != xmlnsNamespace
    && !(space.isSome && uri.isEmpty)
    && !uri.contains '}'

/-- The scope inside an element. -/
def extend (scope : Scope) (attributes : List (QName × List Char)) : Option Scope :=
  attributes.foldlM (fun scope a ↦ match bound? a.1 with
    | none => some scope
    | some space => if canBind space a.2 then some ((space, a.2) :: scope) else none) scope

/-- A local name in a namespace. -/
def expanded (uri base : List Char) : String := String.ofList ('{' :: uri ++ '}' :: base)

def elementName? (scope : Scope) (name : QName) : Option String :=
  match name.space, scope.lookup name.space with
  | none, none => some (String.ofList name.base)
  | none, some uri =>
    some (if uri.isEmpty then String.ofList name.base else expanded uri name.base)
  | some _, none => none
  | some _, some uri => some (expanded uri name.base)

def attributeName? (scope : Scope) (name : QName) : Option String :=
  match name.space with
  | none => some (String.ofList name.base)
  | some _ => (scope.lookup name.space).map (expanded · name.base)

end Scope

end XrBindings.Xml
