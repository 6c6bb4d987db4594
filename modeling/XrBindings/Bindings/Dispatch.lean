import XrBindings.Bindings.Wrapper

/-!
# The dispatch table

The bindings reach the commands through a table of pointers, which is filled by asking for each
command by name, and which has the wrappers as its members.
-/

namespace XrBindings

/-- The command that an alias finally stands for, if the registry has it. -/
def Document.commandAliasTarget? (d : Document) (name : String) : Option String :=
  let links := d.commandAliases.entries.map fun e ↦ (e.1, e.2.target)
  match Chain.follow links name with
  | .arrives last => if d.commands.contains last then some last else none
  | .returns _ _ => none

namespace Context

/-- The types of pointers to commands, except those whose names are taken; the names that are
taken afterwards come second. -/
def commandPointers (c : Context) (taken : List String) : Result (List String × List String) :=
  c.document.commands.values.foldlM (fun (lines, taken) command ↦ do
    let name ← c.renderer.commandPointerName command.name
    if taken.contains name then return (lines, taken)
    let type ← c.functionType command.returns command.params
    return (lines ++ ["pub const " ++ name ++ " = " ++ type ++ ";"], taken ++ [name]))
    ([], taken)

/-- The member that holds the pointer to a command. -/
def pointerMember (c : Context) (command : CommandDecl) : Result String := do
  let pointer ← c.renderer.commandPointerName command.name
  return "    " ++ command.name ++ ": ?" ++ pointer ++ " = null,"

/-- The command that finds commands by name. -/
def procAddrCommand : String := "xrGetInstanceProcAddr"

/-- The type of pointers to functions of any type. -/
def voidFunctionType : String := "PFN_xrVoidFunction"

/-- The registry has everything that filling the table takes. -/
def canLoad (c : Context) : Bool :=
  c.document.commands.contains procAddrCommand && c.document.hasType voidFunctionType
    && c.document.hasType "XrInstance" && c.document.enums.contains "XrResult"

/-- The function that fills the table. -/
def loadFunction (c : Context) : Result (List String) :=
  if !c.canLoad then .ok []
  else do
    let handle ← c.declaredName (some "XrInstance")
    let finder ← c.renderer.commandPointerName procAddrCommand
    let function ← c.declaredName (some voidFunctionType)
    let success ← c.enumLiteral "XrResult" "XR_SUCCESS"
    return ["",
      "    pub fn load(instance: " ++ handle ++ ", get_proc_addr: " ++ finder ++ ") Dispatch \x7b",
      "        var dispatch: Dispatch = .\x7b\x7d;",
      "        inline for (@typeInfo(Dispatch).@\"struct\".fields) |field| \x7b",
      "            var function: " ++ function ++ " = undefined;",
      "            if (get_proc_addr(instance, field.name, &function) == " ++ success ++ ") \x7b",
      "                @field(dispatch, field.name) = @ptrCast(function);",
      "            \x7d",
      "        \x7d",
      "        return dispatch;",
      "    \x7d"]

/-- The other spelling of a wrapper, if it differs. -/
def wrapperAlias (c : Context) (spelling : String) : Result (List String) :=
  match c.document.commandAliasTarget? spelling with
  | none => .ok []
  | some target => do
    let name ← c.renderer.commandName spelling
    let declared ← c.renderer.commandName target
    return if name == declared then []
      else ["    pub const " ++ name ++ " = " ++ declared ++ ";"]

def dispatchSource (c : Context) (signatures : List WrapperSignature) : Result (List String) := do
  let members ← c.document.commands.values.mapM c.pointerMember
  let load ← c.loadFunction
  let wrappers ← signatures.mapM fun s ↦ do
    let lines ← c.wrapperSource s
    return "" :: lines
  let aliases := (← c.document.commandAliases.keys.mapM c.wrapperAlias).flatten
  return ["pub const Dispatch = struct \x7b"] ++ members ++ load ++ wrappers.flatten
    ++ (if aliases.isEmpty then [] else "" :: aliases) ++ ["\x7d;"]

end Context

end XrBindings
