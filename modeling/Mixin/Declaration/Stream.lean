/-
**Streams of declarations.**

A text whose first character that is not blank opens a bracket is one array of declarations.  Any
other text is a sequence of declarations, each after blanks of the JSON grammar and nothing else
between them.  A stream without declarations is refused.

A declaration that cannot be read is reported with the line on which it starts: the line of the
first character that is not blank, in the wide sense, from where its reading began.
-/

import Mixin.Declaration.OfText

namespace Mixin

namespace Stream

/-- Why a stream is refused. -/
inductive Error where
  /-- The array cannot be read. -/
  | array (fault : Fault Rejection)
  /-- The declaration that starts on a line cannot be read. -/
  | declaration (line : Nat) (fault : Fault Rejection)
  /-- There is no declaration. -/
  | empty
deriving DecidableEq

namespace Error

/-- The fault of the text, if that is the error. -/
def fault? : Error → Option (Fault Rejection)
  | array fault => some fault
  | declaration _ fault => some fault
  | empty => none

/-- What was being done. -/
def context : Error → String
  | array _ => "Unable to parse JSON array of class declarations"
  | declaration line _ =>
    "Unable to parse class declaration starting on line " ++ toString line
  | empty => "stdin contained no class declarations"

/-- The error in words, without the position of a fault. -/
def summary (error : Error) : String :=
  match error.fault? with
  | none => error.context
  | some fault => error.context ++ ": " ++ fault.reason Rejection.message

/-- The error in words, with the position of a fault of the grammar in the text. -/
def message (text : String) (error : Error) : String :=
  match error.fault? with
  | none => error.context
  | some fault => error.context ++ ": " ++ fault.message Rejection.message text

end Error

/-! ### Sequences -/

/-- Reads declarations to the end of a text.  A declaration that cannot be read is given with the
text at which its reading began.  Every declaration takes a character, so the length of the text is
enough steps. -/
def readFrom : Nat → List Char → Except (List Char × Fault Rejection) (List Declaration)
  | 0, _ => .ok []
  | steps + 1, text =>
    match Text.dropJsonBlank text with
    | [] => .ok []
    | start =>
      match Declaration.read Declaration.statementDepth start with
      | .error fault => .error (start, fault)
      | .ok (first, rest) => do
        let others ← readFrom steps rest
        .ok (first :: others)

/-- The number of line breaks in a text. -/
def lineBreaks (text : List Char) : Nat := text.count '\n'

/-- The line of the first character of `rest` that is not blank, where `rest` ends `text`. -/
def lineOf (text rest : List Char) : Nat :=
  1 + (lineBreaks text - lineBreaks (Text.trimStart rest))

/-- Reads a sequence of declarations. -/
def readSequence (text : List Char) : Except Error (List Declaration) :=
  match readFrom text.length text with
  | .ok declarations => .ok declarations
  | .error (rest, fault) => .error (.declaration (lineOf text rest) fault)

/-! ### Arrays -/

/-- Reads an array of declarations, whose bracket leaves one level less for their statements. -/
def readArray : Reader Rejection (List Declaration) := fun text => do
  match ← Json.readOpening text with
  | .scalar value _ => .error (.rejected (.mismatch (.ofJson value) .sequence))
  | .list rest => Json.readItems (Declaration.read (Declaration.statementDepth - 1)) rest
  | .object _ => .error (.rejected (.mismatch .map .sequence))

/-! ### Streams -/

/-- Whether a text is an array rather than a sequence. -/
def isArray (text : List Char) : Bool :=
  match Text.trimStart text with
  | '[' :: _ => true
  | _ => false

/-- Reads the declarations of a text, of which there may be none. -/
def readAll (text : String) : Except Error (List Declaration) :=
  if isArray text.toList then
    match Json.readWhole readArray text with
    | .ok declarations => .ok declarations
    | .error fault => .error (.array fault)
  else readSequence text.toList

/-- Reads a stream of declarations. -/
def parse (text : String) : Except Error (List Declaration) := do
  let declarations ← readAll text
  if declarations.isEmpty then .error .empty else .ok declarations

end Stream

end Mixin
