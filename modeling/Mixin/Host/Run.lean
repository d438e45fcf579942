/-
**A run of the host.**

The host loads a mapping and, if one is named, a hierarchy, reads a stream of declarations, applies
the rule to each and writes one line of JSON for each, in order.  It writes nothing unless all of its
input can be read.  How files are read is a parameter, so a run is a function of what it is given.
-/

import Mixin.Declaration.Printer
import Mixin.Declaration.Stream
import Mixin.Hierarchy.Load
import Mixin.Host.Arguments
import Mixin.Mapping.Load
import Mixin.Rule

namespace Mixin.Host

/-! ### Failures -/

/-- Why a run came to nothing. -/
inductive Failure where
  | mapping (path : String) (error : ConfigurationError)
  | hierarchy (path : String) (error : ConfigurationError)
  /-- The stream is not text. -/
  | notText
  | stream (text : String) (error : Stream.Error)

namespace Failure

/-- What a configuration file was for, what is wrong with it, and the cause below. -/
def configuration (purpose path : String) (error : ConfigurationError) : String :=
  ": ".intercalate (("loading " ++ purpose ++ " " ++ path) :: error.message :: error.inner?.toList)

/-- The failure in words, with the position of a fault in the stream if `placed`. -/
def describe (placed : Bool) : Failure → String
  | mapping path error => configuration "capability mapping" path error
  | hierarchy path error => configuration "class hierarchy" path error
  | notText => "reading class declarations from stdin: " ++ FileFault.message .notText
  | stream text error => if placed then error.message text else error.summary

/-- The failure in words. -/
def message : Failure → String := describe true

/-- The failure in words, without the position of a fault in the stream. -/
def summary : Failure → String := describe false

end Failure

/-! ### Reports -/

/-- One declaration of the stream and what became of it. -/
structure Entry where
  declaration : Declaration
  outcome : Outcome

namespace Entry

/-- The word for what became of the declaration. -/
def word (entry : Entry) : String :=
  if entry.outcome.isMutated then "mutated" else "unchanged"

/-- The entry as JSON: what became of the declaration, and the declaration as it is now. -/
def toJson (entry : Entry) : Json :=
  .obj [("outcome", .str entry.word),
    ("declaration", (entry.outcome.result entry.declaration).toJson)]

/-- The entry on a line of its own. -/
def line (entry : Entry) : String := entry.toJson.compact ++ "\n"

end Entry

/-- What a run has to show. -/
structure Report where
  /-- The entries shown, in order of the stream. -/
  entries : List Entry
  /-- What the library had to tell. -/
  events : List Event

namespace Report

/-- The lines of a report. -/
def text (report : Report) : String :=
  String.join (report.entries.map Entry.line)

end Report

/-! ### Runs -/

/-- The text of a file. -/
def readText (read : String → Except FileFault ByteArray) (path : String) :
    Except ConfigurationError String :=
  match read path with
  | .error fault => .error (.unreadable path fault)
  | .ok bytes =>
    match String.fromUTF8? bytes with
    | some text => .ok text
    | none => .error (.unreadable path .notText)

/-- Loads the mapping in a file. -/
def loadMapping (read : String → Except FileFault ByteArray) (path : String) :
    Except ConfigurationError (Logged Mapping) := do
  let text ← readText read path
  Mapping.load text path

/-- Loads the hierarchy in a file. -/
def loadHierarchy (read : String → Except FileFault ByteArray) (path : String) :
    Except ConfigurationError Hierarchy := do
  let text ← readText read path
  Hierarchy.load text path

/-- The hierarchy of a run, empty when none is named. -/
def hierarchyOf (read : String → Except FileFault ByteArray) :
    Option String → Except Failure Hierarchy
  | none => .ok .empty
  | some path =>
    match loadHierarchy read path with
    | .ok hierarchy => .ok hierarchy
    | .error error => .error (.hierarchy path error)

/-- The declarations on standard input. -/
def declarationsOf (input : ByteArray) : Except Failure (List Declaration) :=
  match String.fromUTF8? input with
  | none => .error .notText
  | some text =>
    match Stream.parse text with
    | .ok declarations => .ok declarations
    | .error error => .error (.stream text error)

/-- Applies a rule to declarations; unchanged ones are left out if `onlyMutated`. -/
def report (rule : Rule) (onlyMutated : Bool) (declarations : List Declaration) : Report :=
  let applied := declarations.map fun d => (d, rule.apply d)
  let entries := applied.map fun (d, outcome) => Entry.mk d outcome.value
  { entries := entries.filter fun entry => entry.outcome.isMutated || !onlyMutated
    events := applied.flatMap fun (_, outcome) => outcome.events }

/-- Runs the host on its files and its standard input. -/
def run (read : String → Except FileFault ByteArray) (input : ByteArray) (options : Options) :
    Except Failure Report := do
  let mapping ← match loadMapping read options.config with
    | .ok mapping => .ok mapping
    | .error error => .error (.mapping options.config error)
  let hierarchy ← hierarchyOf read options.hierarchy
  let declarations ← declarationsOf input
  let rule : Rule := ⟨mapping.value, hierarchy.resolve⟩
  let found := report rule options.onlyMutated declarations
  .ok { found with events := mapping.events ++ found.events }

/-! ### Answers -/

/-- How a command line is answered. -/
inductive Answer where
  | version
  | help
  | misuse
  | failed (failure : Failure)
  | done (report : Report)

namespace Answer

/-- The name and version of the program. -/
def versionText : String := "graft-traits 0.1.0\n"

/-- How the program is called. -/
def usage : String :=
  "Usage: graft-traits [OPTIONS] --config <CONFIG>\n"

/-- What the program does, and how it is called. -/
def helpText : String :=
  "Add configured traits to classes extending a configured base type\n\n" ++ usage ++
  "\nOptions:\n" ++
  "      --config <CONFIG>        JSON file of capability markers by base type\n" ++
  "      --hierarchy <HIERARCHY>  JSON file of direct parents by class\n" ++
  "      --only-mutated           Leave out unchanged declarations\n" ++
  "  -h, --help                   Print help\n" ++
  "  -V, --version                Print version\n"

/-- The exit code: zero when all went well, one when a run failed, two for a faulty call. -/
def code : Answer → Nat
  | version | help | done _ => 0
  | failed _ => 1
  | misuse => 2

/-- What goes to standard output. -/
def output : Answer → String
  | version => versionText
  | help => helpText
  | done report => report.text
  | failed _ | misuse => ""

end Answer

/-- Answers a command line. -/
def answer (read : String → Except FileFault ByteArray) (input : ByteArray)
    (words : List String) : Answer :=
  match Request.ofWords words with
  | .version => .version
  | .help => .help
  | .misuse => .misuse
  | .run options =>
    match run read input options with
    | .ok report => .done report
    | .error failure => .failed failure

end Mixin.Host
