import XrBindings.Bindings.EnumMembers

/-!
# Checks of results

For each enum that commands return, the bindings have a set of errors and a function that turns a
value of the enum into success or into one of the errors. A value that the registry does not name
is an unknown error.
-/

namespace XrBindings

namespace Context

/-- The name of the set of errors of an enum. -/
def errorSetName (c : Context) (enumName : String) : Result String :=
  (c.declaredName (some enumName)).map (· ++ "Error")

def checkName (c : Context) (enumName : String) : Result String :=
  (c.declaredName (some enumName)).map ("check" ++ ·)

/-- The names of the errors of an enum, each once. -/
def errorNames (c : Context) (p : ResultPartition) : Result (List String) := do
  let names ← p.error.mapM fun value ↦ do c.renderer.errorName (← required value)
  let distinct := names.eraseDups
  return if distinct.contains "Unknown" then distinct else distinct ++ ["Unknown"]

/-- The arm of a field that reports an error. -/
def errorArm (c : Context) (f : EnumField) : Result String := do
  let error ← c.renderer.errorName f.source
  return "        ." ++ f.name ++ " => return error." ++ error ++ ","

/-- The set of errors of an enum and its check. -/
def resultCheckSource (c : Context) (p : ResultPartition) : Result (List String) := do
  let enumType ← c.declaredName (some p.enumName)
  let decl ← match c.document.enums.get? p.enumName with
    | some decl => pure decl
    | none => .error .unknownName
  let members ← c.enumMembers decl
  let errors ← c.errorNames p
  let errorSet ← c.errorSetName p.enumName
  let check ← c.checkName p.enumName
  let isError (f : EnumField) := p.isError (some f.source)
  let success := members.fields.filter fun f ↦ !isError f
  let arms ← (members.fields.filter isError).mapM c.errorArm
  return ["pub const " ++ errorSet ++ " = error\x7b"]
    ++ (errors.map fun e ↦ "    " ++ e ++ ",")
    ++ ["\x7d;", "",
        "pub fn " ++ check ++ "(result: " ++ enumType ++ ") " ++ errorSet ++ "!void \x7b",
        "    switch (result) \x7b"]
    ++ (if success.isEmpty then []
        else (success.map fun f ↦ "        ." ++ f.name ++ ",") ++ ["        => \x7b\x7d,"])
    ++ arms
    ++ ["        _ => return error.Unknown,", "    \x7d", "\x7d"]

end Context

end XrBindings
