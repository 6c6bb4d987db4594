import XrBindings.Registry.Document
import XrBindings.Registry.Load.Field

/-!
# Commands in a document

A command has a prototype, which gives its name and what it returns, and parameters. A command
with an `alias` attribute is another spelling of one.
-/

namespace XrBindings.Load

open XrBindings.Xml

structure CommandTables where
  commands : Table String CommandDecl := .empty
  aliases : Table String CommandAlias := .empty

namespace CommandTables

/-- Refuse a name that is taken, by a command or by a spelling. -/
def requireNew (tables : CommandTables) (name : String) : Result Unit :=
  if tables.commands.contains name || tables.aliases.contains name then
    reject (.duplicateCommand name)
  else .ok ()

def add (tables : CommandTables) (e : Element) : Result CommandTables := do
  if !supportsApi (e.get? "api") then return tables
  match e.nonempty? "alias" with
  | some target =>
    let name := (e.get? "name").getD ""
    tables.requireNew name
    return { tables with aliases := tables.aliases.insert name { name, target } }
  | none =>
    match e.child? "proto" with
    | none => reject .commandWithoutPrototype
    | some proto =>
      let result ← field proto
      let name := result.name
      tables.requireNew name
      let params ←
        ((e.childrenNamed "param").filter fun p ↦ supportsApi (p.get? "api")).mapM field
      let command : CommandDecl := {
        name, params
        returns := {
          name := "", typeName := result.typeName, pointers := result.pointers
          isConst := result.isConst }
        successCodes := Declarator.listAttribute (e.get? "successcodes")
        errorCodes := Declarator.listAttribute (e.get? "errorcodes") }
      return { tables with commands := tables.commands.insert name command }

end CommandTables

def commandTables (root : Element) : Result CommandTables :=
  (root.grandchildrenNamed "commands" "command").foldlM CommandTables.add {}

end XrBindings.Load
