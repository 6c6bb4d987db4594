/-!
# Distinct names

Several names of the registry may be rendered alike. The first keeps the short form; another one
takes its long form, and if that is taken too, the long form with the first number from two on
that makes it new.
-/

namespace XrBindings.Naming

/-- A name with a number. -/
def numbered (name : String) (n : Nat) : String := name ++ "_" ++ toString n

/-- A name that is not in use. Among as many numbers as there are names in use, and one more, at
least one gives a new name. -/
def uniqueName (short long : String) (used : List String) : String :=
  if !used.contains short then short
  else if !used.contains long then long
  else
    let numbers := (List.range (used.length + 1)).map (· + 2)
    ((numbers.map (numbered long)).find? fun n ↦ !used.contains n).getD long

end XrBindings.Naming
