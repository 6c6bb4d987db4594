import XrBindings.Flags.Layout

/-!
# Flags in Zig

A set of flags is a packed struct with one field for each bit, named or reserved, and with the
operations of the algebra of flags as functions.
-/

namespace XrBindings.FlagLayout

/-- A number in base sixteen. -/
def hexText (n : Nat) : String := "0x" ++ String.ofList (Nat.toDigits 16 n)

/-- The field of a bit. -/
def fieldName : Nat × Option String → String
  | (_, some flag) => flag
  | (position, none) => "_reserved_bit_" ++ toString position

/-- The integer type of the storage. -/
def intType (l : FlagLayout) : String := "u" ++ toString l.width

/-- A function with its parameters, its result and the expression that it returns. -/
def functionLines (signature result expression : String) : List String :=
  ["    pub fn " ++ signature ++ " " ++ result ++ " \x7b",
   "        return " ++ expression ++ ";",
   "    \x7d"]

def source (l : FlagLayout) : List String :=
  let name := l.name
  let int := l.intType
  let both := "(lhs: " ++ name ++ ", rhs: " ++ name ++ ")"
  ["pub const " ++ name ++ " = packed struct(" ++ int ++ ") \x7b"]
    ++ (l.fields.map fun f ↦ "    " ++ fieldName f ++ ": bool = false,")
    ++ ["",
        "    pub const IntType = " ++ int ++ ";",
        "    pub const defined_mask: " ++ int ++ " = " ++ hexText l.definedMask ++ ";"]
    ++ (l.masks.map fun m ↦
        "    pub const " ++ m.1 ++ ": " ++ name ++ " = @bitCast(@as(" ++ int ++ ", " ++
          hexText m.2 ++ "));")
    ++ [""] ++ functionLines ("toInt(self: " ++ name ++ ")") int "@bitCast(self)"
    ++ [""] ++ functionLines ("fromInt(bits: " ++ int ++ ")") name "@bitCast(bits)"
    ++ [""] ++ functionLines ("merge" ++ both) name "fromInt(toInt(lhs) | toInt(rhs))"
    ++ [""] ++ functionLines ("intersect" ++ both) name "fromInt(toInt(lhs) & toInt(rhs))"
    ++ [""] ++ functionLines ("subtract" ++ both) name "fromInt(toInt(lhs) & ~toInt(rhs))"
    ++ [""] ++ functionLines ("complement(self: " ++ name ++ ")") name
        "fromInt(~toInt(self) & defined_mask)"
    ++ [""] ++ functionLines ("contains" ++ both) "bool" "(toInt(lhs) & toInt(rhs)) == toInt(rhs)"
    ++ ["\x7d;"]

end XrBindings.FlagLayout
