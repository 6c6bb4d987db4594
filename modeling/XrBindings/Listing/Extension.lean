import XrBindings.Registry.Document
import XrBindings.Text.Cut
import XrBindings.Text.LetterCase

/-!
# Summaries of extensions

What the listings tell about an extension: where it comes from, what it depends on, and how much
it brings in, where a name that is brought in several times counts once.
-/

namespace XrBindings

open XrBindings.Text

/-- An extension in one line. -/
structure ExtensionSummary where
  name : String
  vendorTag : String
  version : Int
  extType : String
  typeCount : Int
  commandCount : Int
  depends : String
  promotedTo : Option String
  deriving DecidableEq, Repr

/-- A type that an extension brings in; the category is empty if the registry does not declare
it. -/
structure TypeEntry where
  name : String
  category : String
  deriving DecidableEq, Repr

/-- Everything about an extension. -/
structure ExtensionDetail where
  summary : ExtensionSummary
  types : List TypeEntry
  commands : List String
  deriving DecidableEq, Repr

def Extension.summary (x : Extension) : ExtensionSummary where
  name := x.name
  vendorTag := x.vendorTag
  version := x.version
  extType := x.extType
  typeCount := x.required.types.eraseDups.length
  commandCount := x.required.commands.eraseDups.length
  depends := x.depends
  promotedTo := x.promotedTo

namespace Document

/-- The summaries of all extensions, by name; extensions of one name stay in their order. -/
def extensionSummaries (d : Document) : List ExtensionSummary :=
  (d.extensions.map Extension.summary).mergeSort fun a b ↦ decide (a.name ≤ b.name)

/-- Everything about the first extension of a name. -/
def extensionDetail? (d : Document) (name : String) : Option ExtensionDetail :=
  (d.extensions.find? (·.name == name)).map fun x ↦ {
    summary := x.summary
    types := x.required.types.eraseDups.map fun n ↦
      { name := n, category := ((d.type? n).map TypeDecl.kind).getD "" }
    commands := x.required.commands.eraseDups }

end Document

/-- The extensions whose names contain a text, in whatever case. -/
def filterByText (summaries : List ExtensionSummary) (text : String) : List ExtensionSummary :=
  summaries.filter fun s ↦ hasText (lower s.name) (lower text)

end XrBindings
