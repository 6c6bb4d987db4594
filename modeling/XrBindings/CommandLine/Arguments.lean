import XrBindings.CommandLine.Config

/-!
# Reading the command line

Options may stand anywhere and may be shortened as long as they stay unambiguous; a value follows
an option as the next word or after an equals sign. The word `--` ends the options. Two words in
all stand for themselves: the registry and the output. They have to follow each other, because
the first group of such words is the only one that is read.
-/

namespace XrBindings

open XrBindings.Text

namespace Arguments

/-- The options. -/
inductive Flag where
  | help | listExtensions | info | filter
  deriving DecidableEq, Repr

def spellings : List (String × Flag) :=
  [("-h", .help), ("--help", .help), ("--list-extensions", .listExtensions), ("--info", .info),
   ("--filter", .filter)]

/-- A word of the command line, by its form. -/
inductive Word where
  /-- An option, and the value that is joined to it. -/
  | option (flag : Flag) (joined : Option String)
  /-- A word in the form of an option, which is none. -/
  | unknown
  /-- The end of the options. -/
  | separator
  | value (text : String)
  deriving DecidableEq, Repr

/-- Why the command line cannot be read. -/
inductive UsageError where
  | usage
  /-- Help is asked for, which is no error. -/
  | helpWanted
  deriving DecidableEq, Repr

/-! ## Words -/

/-- A negative number, which is a value. -/
def isNegativeNumber (cs : List Char) : Bool :=
  match cs with
  | '-' :: rest =>
    let whole := rest.takeWhile Char.isDigit
    match rest.dropWhile Char.isDigit with
    | [] => !whole.isEmpty
    | '.' :: fraction => !fraction.isEmpty && fraction.all Char.isDigit
    | _ => false
  | _ => false

def cutAtEquals (word : String) : String × Option String :=
  match word.toList.span (· != '=') with
  | (name, _ :: value) => (String.ofList name, some (String.ofList value))
  | (name, []) => (String.ofList name, none)

/-- The options that a shortened word can stand for. A word with one hyphen may be a short option
with its value joined to it. -/
def candidates (word : String) : List Word :=
  if startsWith word "--" then
    let (name, joined) := cutAtEquals word
    (spellings.filter fun s ↦ startsWith s.1 name).map fun s ↦ .option s.2 joined
  else
    spellings.filterMap fun s ↦
      if s.1 == takeFirst 2 word then some (.option s.2 (some (dropFirst 2 word)))
      else if startsWith s.1 word then some (.option s.2 none)
      else none

/-- The form of a word before the end of the options. -/
def classify (word : String) : Except UsageError Word :=
  let (name, joined) := cutAtEquals word
  if !startsWith word "-" || word == "-" then .ok (.value word)
  else match spellings.lookup word with
    | some flag => .ok (.option flag none)
    | none =>
      match joined, spellings.lookup name with
      | some value, some flag => .ok (.option flag (some value))
      | _, _ =>
        match candidates word with
        | [w] => .ok w
        | _ :: _ :: _ => .error .usage
        | [] =>
          if isNegativeNumber word.toList || word.toList.contains ' ' then .ok (.value word)
          else .ok .unknown

/-- The forms of all words. -/
def classifyAll : List String → Except UsageError (List Word)
  | [] => .ok []
  | word :: rest =>
    if word == "--" then .ok (.separator :: rest.map .value)
    else do
      let w ← classify word
      let ws ← classifyAll rest
      return w :: ws

/-! ## Places -/

/-- The words of one place among words that stand for themselves: at most one, with the mark for
the end of the options on either side of it. -/
def takePlace (words : List String) (marks : List Bool) : List String × List String × List Bool :=
  let before := marks.takeWhile id
  let afterBefore := marks.drop before.length
  let one := min 1 afterBefore.length
  let behind := (afterBefore.drop one).takeWhile id
  let n := before.length + one + behind.length
  (words.take n, words.drop n, marks.drop n)

/-- The path that stands in a place; one mark for the end of the options is taken off. -/
def placePath? (words : List String) : Option Path :=
  (words.erase "--").head?.map Path.ofString

def isSeparator : Word → Bool
  | .separator => true
  | _ => false

def plainText? : Word → Option String
  | .separator => some "--"
  | .value text => some text
  | _ => none

def isPlain (w : Word) : Bool := (plainText? w).isSome

structure State where
  read : Arguments := {}
  /-- The registry and the output have been read. -/
  placed : Bool := false
  /-- Something was left over. -/
  leftOver : Bool := false
  deriving DecidableEq, Repr

/-- Read a group of words that stand for themselves. -/
def State.place (s : State) (group : List Word) : State :=
  if group.isEmpty then s
  else if s.placed then { s with leftOver := true }
  else
    let (first, rest, marks) := takePlace (group.filterMap plainText?) (group.map isSeparator)
    let (second, rest, _) := takePlace rest marks
    { read := { s.read with registry := placePath? first, output := placePath? second }
      placed := true
      leftOver := s.leftOver || !rest.isEmpty }

/-- Read an option. The listing and the information exclude each other. -/
def State.option (s : State) (flag : Flag) (value : String) : Except UsageError State :=
  match flag with
  | .help => .error .helpWanted
  | .listExtensions =>
    if s.read.info.isSome then .error .usage
    else .ok { s with read := { s.read with listExtensions := true } }
  | .info =>
    if s.read.listExtensions then .error .usage
    else .ok { s with read := { s.read with info := some value } }
  | .filter => .ok { s with read := { s.read with filter := some value } }

/-- The option takes a value. -/
def Flag.takesValue : Flag → Bool
  | .info | .filter => true
  | .help | .listExtensions => false

/-! ## The whole line -/

/-- Read words, after a group of words that stand for themselves. -/
def readWords (s : State) (group : List Word) : List Word → Except UsageError State
  | [] => .ok (s.place group)
  | .separator :: rest => readWords s (group ++ [.separator]) rest
  | .value text :: rest => readWords s (group ++ [.value text]) rest
  | .unknown :: rest => readWords { s.place group with leftOver := true } [] rest
  | .option flag (some value) :: rest =>
    if flag.takesValue then do
      let s ← (s.place group).option flag value
      readWords s [] rest
    -- letters that are joined to a short option are short options themselves
    else if flag == .help && !value.isEmpty && value.toList.all (· == 'h') then .error .helpWanted
    else .error .usage
  | .option flag none :: rest =>
    if flag.takesValue then
      match rest with
      | .value text :: rest => do
        let s ← (s.place group).option flag text
        readWords s [] rest
      | _ => .error .usage
    else do
      let s ← (s.place group).option flag ""
      readWords s [] rest

def ofWords (words : List String) : Except UsageError Arguments := do
  let classified ← classifyAll words
  let s ← readWords {} [] classified
  if s.leftOver then .error .usage else .ok s.read

end Arguments

end XrBindings
