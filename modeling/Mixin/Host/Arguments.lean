/-
**The command line.**

Words are taken from left to right and the first fault decides.  An option takes its value from the
same word, after an equals sign, or from the next word, unless that word looks like an option itself.
No option may come twice.  A request for help or for the version is granted as soon as it is met.
-/

namespace Mixin.Host

/-- What a run needs to know. -/
structure Options where
  /-- The file that holds the mapping. -/
  config : String
  /-- The file that holds the hierarchy. -/
  hierarchy : Option String := none
  /-- Whether unchanged declarations are left out. -/
  onlyMutated : Bool := false
deriving DecidableEq, Repr

/-- What a command line asks for. -/
inductive Request where
  | run (options : Options)
  | version
  | help
  /-- The command line is at fault. -/
  | misuse
deriving DecidableEq, Repr

/-- The options that take a value. -/
inductive Setting where
  | config
  | hierarchy
deriving DecidableEq, Repr

/-- What a single word is. -/
inductive Word where
  /-- An option, with its value if that is in the word. -/
  | setting (setting : Setting) (value : Option String)
  | onlyMutated
  | version
  | help
  /-- The mark after which every word would be an operand. -/
  | endOfOptions
  /-- An option that does not exist, or an operand where none is taken. -/
  | unknown
deriving DecidableEq, Repr

namespace Word

/-- Parts a text at its first equals sign. -/
def splitValue : List Char → List Char × Option (List Char)
  | [] => ([], none)
  | '=' :: value => ([], some value)
  | c :: rest =>
    let (name, value) := splitValue rest
    (c :: name, value)

/-- A long option, without its dashes. -/
def ofLong (text : List Char) : Word :=
  let (name, value) := splitValue text
  match String.ofList name, value with
  | "config", value => setting .config (value.map String.ofList)
  | "hierarchy", value => setting .hierarchy (value.map String.ofList)
  | "only-mutated", none => onlyMutated
  | "version", none => version
  | "help", none => help
  | _, _ => unknown

/-- Classifies a word; of letters run together after one dash the first decides. -/
def ofString (text : String) : Word :=
  match text.toList with
  | ['-', '-'] => endOfOptions
  | '-' :: '-' :: long => ofLong long
  | '-' :: 'V' :: _ => version
  | '-' :: 'h' :: _ => help
  | _ => unknown

/-- Whether a word can be the value of the option before it. -/
def isValue (text : String) : Bool :=
  match text.toList with
  | [] => false
  | ['-'] => true
  | c :: _ => c != '-'

end Word

/-- The options met so far. -/
structure Given where
  config : Option String := none
  hierarchy : Option String := none
  onlyMutated : Bool := false

namespace Given

/-- Takes the value of an option, which must not be empty or come twice. -/
def set (given : Given) (setting : Setting) (value : String) : Option Given :=
  if value.isEmpty then none
  else match setting with
    | .config => if given.config.isSome then none else some { given with config := some value }
    | .hierarchy =>
      if given.hierarchy.isSome then none else some { given with hierarchy := some value }

/-- What is asked for once every word has been taken; the mapping must have been named. -/
def finish (given : Given) : Request :=
  match given.config with
  | none => .misuse
  | some config => .run ⟨config, given.hierarchy, given.onlyMutated⟩

/-- Takes the words of a command line. -/
def take (given : Given) : List String → Request
  | [] => given.finish
  | word :: rest =>
    match Word.ofString word with
    | .setting setting (some value) =>
      match given.set setting value with
      | some given => given.take rest
      | none => .misuse
    | .setting setting none =>
      match rest with
      | [] => .misuse
      | value :: rest =>
        if Word.isValue value then
          match given.set setting value with
          | some given => given.take rest
          | none => .misuse
        else .misuse
    | .onlyMutated =>
      if given.onlyMutated then .misuse else take { given with onlyMutated := true } rest
    | .version => .version
    | .help => .help
    | .endOfOptions => if rest.isEmpty then given.finish else .misuse
    | .unknown => .misuse

end Given

/-- What a command line asks for. -/
def Request.ofWords (words : List String) : Request :=
  Given.take {} words

end Mixin.Host
