/-!
# Scanners

A scanner reads a value off the front of a text. It returns the rest together with the fact that
the rest is no longer than the text, so that composed scanners keep the fact and a loop that takes
one character before each round ends. No fuel is needed anywhere.
-/

namespace XrBindings.Xml

/-- Reads a value off the front of a text, or refuses the text. -/
def Scanner (α : Type) := (s : List Char) → Option (α × { r : List Char // r.length ≤ s.length })

namespace Scanner

variable {α β : Type}

/-- Read nothing. -/
def nothing (a : α) : Scanner α := fun s ↦ some (a, ⟨s, Nat.le_refl _⟩)

/-- Read one thing after another. -/
def andThen (p : Scanner α) (f : α → Scanner β) : Scanner β := fun s ↦
  match p s with
  | none => none
  | some (a, r) => match f a r.1 with
    | none => none
    | some (b, t) => some (b, ⟨t.1, Nat.le_trans t.2 r.2⟩)

instance : Monad Scanner where
  pure := nothing
  bind := andThen

def refuse : Scanner α := fun _ ↦ none

/-- Go on only if a condition holds. -/
def require (b : Bool) : Scanner Unit := if b then nothing () else refuse

/-- Go on with a value that has to be there. -/
def ofOption : Option α → Scanner α
  | some a => nothing a
  | none => refuse

/-- Look at the next character without reading it. -/
def peek? : Scanner (Option Char) := fun s ↦ some (s.head?, ⟨s, Nat.le_refl _⟩)

/-- Read one character of a class. -/
def charOf (p : Char → Bool) : Scanner Char
  | [] => none
  | c :: rest => if p c then some (c, ⟨rest, Nat.le_succ _⟩) else none

/-- Read one given character. -/
def char (c : Char) : Scanner Unit := do let _ ← charOf (· == c)

/-- Read a given text. -/
def literal : List Char → Scanner Unit
  | [] => nothing ()
  | c :: rest => do char c; literal rest

def tryLiteral (text : List Char) : Scanner Bool := fun s ↦
  match literal text s with
  | some (_, r) => some (true, r)
  | none => some (false, ⟨s, Nat.le_refl _⟩)

/-- Read as many characters of a class as come next. -/
def takeWhile (p : Char → Bool) : Scanner (List Char) := fun s ↦
  some (s.takeWhile p, ⟨s.dropWhile p, (List.dropWhile_sublist p).length_le⟩)

/-- Read at least one character of a class. -/
def takeWhile1 (p : Char → Bool) : Scanner (List Char) := do
  let cs ← takeWhile p
  require !cs.isEmpty
  return cs

/-- Read rounds, each of which takes a character first and goes on as that character and what
follows it say. The loop ends before a character that starts no round; `done` holds the results so
far, last first. -/
def loop (round : Char → List Char → Option (Scanner α)) (done : List α) (s : List Char) :
    Option (List α × { r : List Char // r.length ≤ s.length }) :=
  match s with
  | [] => some (done.reverse, ⟨[], Nat.le_refl _⟩)
  | c :: rest => match round c rest with
    | none => some (done.reverse, ⟨c :: rest, Nat.le_refl _⟩)
    | some p => match p rest with
      | none => none
      | some (a, r) => match loop round (a :: done) r.1 with
        | none => none
        | some (as, t) => some (as, ⟨t.1, Nat.le_trans t.2 (Nat.le_succ_of_le r.2)⟩)
termination_by s.length
decreasing_by exact Nat.lt_succ_of_le r.2

/-- Read as many rounds as come next, where what follows a character decides too. -/
def manyAhead (round : Char → List Char → Option (Scanner α)) : Scanner (List α) := loop round []

/-- Read as many rounds as come next. -/
def many (round : Char → Option (Scanner α)) : Scanner (List α) := manyAhead fun c _ ↦ round c

/-- Skip up to and including the text `stop`. What is skipped has to be of a class. -/
def skipPast (stop : List Char) (p : Char → Bool) : Scanner (List Char) := fun s ↦
  go [] s
where
  /-- `skipped` holds what was skipped, last first. -/
  go (skipped : List Char) : (s : List Char) →
      Option (List Char × { r : List Char // r.length ≤ s.length })
    | [] => none
    | c :: rest =>
      match literal stop (c :: rest) with
      | some (_, r) => some (skipped.reverse, r)
      | none =>
        if p c then
          match go (c :: skipped) rest with
          | some (cs, r) => some (cs, ⟨r.1, Nat.le_succ_of_le r.2⟩)
          | none => none
        else none

/-- Read a whole text. -/
def runAll (p : Scanner α) (s : List Char) : Option α :=
  match p s with
  | some (a, ⟨[], _⟩) => some a
  | _ => none

end Scanner

end XrBindings.Xml
