import XrBindings.Bindings.Source
import XrBindings.CommandLine.Arguments
import XrBindings.CommandLine.Directory
import XrBindings.Listing.Report
import XrBindings.Listing.Table

/-!
# The program

From the words of a command line to what is printed and written. The program works in any monad
that gives access to files, so it runs on a directory in memory as it runs on the system.
-/

namespace XrBindings

open XrBindings.Text

/-- What a run leaves behind, besides files. -/
structure Outcome where
  exitCode : Nat
  out : String := ""
  err : String := ""
  deriving DecidableEq, Repr

/-- Lines of text. -/
def linesText (lines : List String) : String := String.join (lines.map (· ++ "\n"))

namespace Outcome

/-- A run that ends well. -/
def done (out : String) : Outcome := { exitCode := 0, out }

/-- A run that stops, after some output, because a registry is rejected. -/
def rejected (before : String) (e : GenerationError) : Outcome where
  exitCode := 1
  out := before ++ linesText
    ["Generation error [" ++ e.code.name ++ "] in " ++ e.stage.name ++ ": " ++ e.message]

/-- A run that stops, after some output, because of a fault of the system. -/
def fault (before fault : String) : Outcome where
  exitCode := 1
  out := before ++ linesText ["Error: " ++ fault]

/-- A run that stops because arguments are refused. -/
def refused (e : ConfigError) : Outcome where
  exitCode := 1
  out := linesText ["Config error [" ++ e.code ++ "]: " ++ e.message, "Hint: " ++ e.suggestion]

/-- Go on with a result, or stop because the registry is rejected. Any other failure is not
reported but passed on. -/
def onResult {α : Type} (before : String) (r : Result α) (next : α → Result Outcome) :
    Result Outcome :=
  match r with
  | .ok a => next a
  | .error (.rejected e) => .ok (rejected before e)
  | .error f => .error f

end Outcome

def Document.listing (d : Document) (command : Discovery) (filter info : Option String) :
    Result Outcome :=
  match command with
  | .listExtensions =>
    let all := d.extensionSummaries
    (extensionsTable ((filter.map (filterByText all)).getD all) d.version).map .done
  | .info =>
    let name := info.getD ""
    match d.extensionDetail? name with
    | some detail => detail.text.map .done
    | none => .ok {
      exitCode := 1
      err := linesText
        ["Error: extension '" ++ name ++ "' not found in xr.xml " ++ d.version] }

def lineCount (s : String) : Nat := s.toList.count '\n'

/-- What a registry holds, as the progress of a generation tells it. -/
def Document.sizeLine (d : Document) : String :=
  "  Registry: " ++ toString d.types.size ++ " types, " ++ toString d.enums.size ++ " enums, " ++
    toString d.commands.size ++ " commands, " ++ toString d.extensions.length ++ " extensions"

/-- The report of a generation that was written to a place. -/
def Document.report (d : Document) (source outputPath : String) : GenerationSummary where
  sourceLabel := "xr.xml " ++ d.version
  outputPath := outputPath
  counts := d.counts
  lineCount := lineCount source
  byteCount := source.utf8ByteSize

section

variable {m : Type → Type} [Monad m]

/-- List what a registry holds. -/
def runDiscovery (files : FileAccess m) (command : Discovery) (registry : Path)
    (filter info : Option String) : m (Result Outcome) := do
  match ← files.read registry with
  | .error fault => return .ok (.fault "" fault)
  | .ok bytes =>
    return Outcome.onResult "" (Source.bytes bytes).document fun d ↦
      d.listing command filter info

/-- Write bindings that have been rendered, and report. -/
def writeBindings (files : FileAccess m) (before : String) (d : Document) (output : Path)
    (source : String) : m Outcome := do
  let before := before ++ linesText ["  Rendered: " ++ grouped (lineCount source) ++ " lines"]
  match ← files.write output source with
  | .error fault => return .fault before fault
  | .ok written =>
    return .done (before ++ linesText ["  Written: " ++ written] ++ (d.report source written).text)

/-- Generate bindings. Nothing is written unless everything has been rendered. -/
def runGenerate (files : FileAccess m) (registry output : Path) : m (Result Outcome) := do
  let before := linesText ["Parsing: " ++ registry.text]
  match ← files.read registry with
  | .error fault => return .ok (.fault before fault)
  | .ok bytes =>
    match (Source.bytes bytes).document with
    | .error f => return Outcome.onResult before (.error f) fun (_ : Unit) ↦ .error f
    | .ok d =>
      let before := before ++ linesText [d.sizeLine]
      match d.bindings with
      | .error f => return Outcome.onResult before (.error f) fun (_ : Unit) ↦ .error f
      | .ok source => return .ok (← writeBindings files before d output source)

/-- What is printed when the command line cannot be read, or help is wanted. -/
def usageText : String :=
  "usage: xrgen [-h] [--list-extensions | --info INFO] [--filter FILTER] [registry] [output]\n"

/-- Run the program on the words of a command line. -/
def run (files : FileAccess m) (words : List String) : m (Result Outcome) := do
  match Arguments.ofWords words with
  | .error .usage => return .ok { exitCode := 2, err := usageText }
  | .error .helpWanted => return .ok { exitCode := 0, out := usageText }
  | .ok arguments =>
    let there ← match arguments.registry with
      | some path => files.isThere path
      | none => pure false
    match Config.ofArguments (fun _ ↦ there) arguments with
    | .error e => return .ok (.refused e)
    | .ok (.generate registry output) => runGenerate files registry output
    | .ok (.discovery command registry filter info) =>
      runDiscovery files command registry filter info

end

end XrBindings
