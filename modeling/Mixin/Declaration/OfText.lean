/-
**Reading a declaration from JSON text.**

The text is read once, from left to right, and the first fault wins, whether it breaks the grammar
or the declaration.  Unknown members of a declaration are skimmed; what a statement holds is read as
plain values first and looked at when the statement has ended, only its kind is looked at on sight.
-/

import Mixin.Declaration.OfJson
import Mixin.Json.Document
import Mixin.Json.Skim

namespace Mixin

open Json (readOpening Opening)
open Text (dropJsonBlank)

namespace Fault

/-- Turns a refusal into a fault of the text it was read from. -/
def ofRejection {α : Type} : Except Rejection α → Except (Fault Rejection) α
  | .ok value => .ok value
  | .error why => .error (.rejected why)

end Fault

namespace Json

/-- The string that a value begins with, where something expected was due. -/
def textOf (expected : Expected) : Opening → Except (Fault Rejection) (String × List Char)
  | .scalar (.str text) rest => .ok (text, rest)
  | .scalar other _ => .error (.rejected (.mismatch (.ofJson other) expected))
  | .list _ => .error (.rejected (.mismatch .sequence expected))
  | .object _ => .error (.rejected (.mismatch .map expected))

end Json

namespace TypeName

/-- The name that a value begins with. -/
def ofOpening (opening : Opening) : Except (Fault Rejection) (TypeName × List Char) := do
  let (spelling, rest) ← Json.textOf .text opening
  let name ← Fault.ofRejection (ofSpelling spelling)
  .ok (name, rest)

/-- Reads a name. -/
def read : Reader Rejection TypeName := fun text => do
  let opening ← readOpening text
  ofOpening opening

/-- Reads a name or null. -/
def read? : Reader Rejection (Option TypeName) := fun text => do
  match ← readOpening text with
  | .scalar .null rest => .ok (none, rest)
  | opening =>
    let (name, rest) ← ofOpening opening
    .ok (some name, rest)

/-- Reads a whole text as a name. -/
def ofText (text : String) : Except (Fault Rejection) TypeName :=
  Json.readWhole read text

end TypeName

namespace Kind

/-- Reads a kind. -/
def read : Reader Rejection Kind := fun text => do
  let opening ← readOpening text
  let (word, rest) ← Json.textOf .kind opening
  let kind ← Fault.ofRejection (ofWord word)
  .ok (kind, rest)

end Kind

namespace Statement

/-- Chooses how a member of a statement is read: the kind on sight, anything else as a value. -/
def readMember (depth : Nat) (split : Option Kind × List (String × Json)) (key : String) :
    Except (Fault Rejection) (Reader Rejection (Option Kind × List (String × Json))) :=
  if key = kindKey then
    match split.1 with
    | some _ => .error (.rejected (.duplicateField kindKey))
    | none => .ok fun text => do
      let (kind, rest) ← Kind.read text
      .ok ((some kind, split.2), rest)
  else .ok fun text => do
    let (value, rest) ← Json.readValue depth text
    .ok ((split.1, split.2 ++ [(key, value)]), rest)

/-- Reads a statement in the list form, from after its bracket. -/
def readList (depth : Nat) : Reader Rejection Statement := fun text => do
  match ← Json.nextItem true text with
  | .close _ => .error (.rejected (.missingField kindKey))
  | .part rest =>
    let (kind, rest) ← Kind.read rest
    let (items, rest) ← Json.readMoreItems (Json.readValue depth) rest
    let statement ← Fault.ofRejection (ofItems kind items)
    .ok (statement, rest)

/-- Reads a statement; `depth` more brackets may be open inside it. -/
def read (depth : Nat) : Reader Rejection Statement := fun text => do
  match ← readOpening text with
  | .scalar value _ => .error (.rejected (.mismatch (.ofJson value) .statement))
  | .list rest => readList depth rest
  | .object rest =>
    let (split, rest) ← Json.readMembers (readMember depth) (none, []) rest
    let statement ← Fault.ofRejection (ofSplit split)
    .ok (statement, rest)

/-- Reads the body of a class. -/
def readBody (depth : Nat) : Reader Rejection (List Statement) := fun text => do
  match ← readOpening text with
  | .scalar value _ => .error (.rejected (.mismatch (.ofJson value) .sequence))
  | .list rest => Json.readItems (read depth) rest
  | .object _ => .error (.rejected (.mismatch .map .sequence))

end Statement

namespace Fields

/-- Reads one field. -/
def read (depth : Nat) (fields : Fields) : Field → Reader Rejection Fields
  | .name, text => do
    let (name, rest) ← TypeName.read? text
    .ok ({ fields with name := some name }, rest)
  | .parent, text => do
    let (parent, rest) ← TypeName.read? text
    .ok ({ fields with parent := some parent }, rest)
  | .body, text => do
    let (body, rest) ← Statement.readBody depth text
    .ok ({ fields with body := some body }, rest)

/-- Chooses how a member of a declaration is read; unknown ones are skimmed. -/
def readMember (depth : Nat) (fields : Fields) (key : String) :
    Except (Fault Rejection) (Reader Rejection Fields) :=
  match Field.ofKey? key with
  | none => .ok fun text => do
    let (_, rest) ← Json.skimValue text
    .ok (fields, rest)
  | some field =>
    if fields.has field then .error (.rejected (.duplicateField field.key))
    else .ok (fields.read depth field)

/-- The end of a list form all of whose fields have been read. -/
def closeList : Reader Rejection Unit := fun text =>
  match dropJsonBlank text with
  | [] => .error (.on .endInList [])
  | c :: rest =>
    if c = ']' then .ok ((), rest)
    else if c = ',' then
      match dropJsonBlank rest with
      | ']' :: after => .error (.on .trailingComma (']' :: after))
      | other => .error (.on .trailingCharacters other)
    else .error (.on .trailingCharacters (c :: rest))

/-- Reads the list form of a declaration, from after its bracket or a field. -/
def readList (depth : Nat) : List Field → Bool → Fields → Reader Rejection Fields
  | [], _, fields, text => do
    let (_, rest) ← closeList text
    .ok (fields, rest)
  | field :: others, first, fields, text => do
    match ← Json.nextItem first text with
    | .close rest => .ok (fields, rest)
    | .part rest =>
      let (fields, rest) ← fields.read depth field rest
      readList depth others false fields rest

end Fields

namespace Declaration

/-- Reads a declaration; `depth` more brackets may be open inside its statements. -/
def read (depth : Nat) : Reader Rejection Declaration := fun text => do
  match ← readOpening text with
  | .scalar value _ => .error (.rejected (.mismatch (.ofJson value) .declaration))
  | .list rest =>
    let (fields, rest) ← Fields.readList depth Field.all true {} rest
    .ok (fields.toDeclaration, rest)
  | .object rest =>
    let (fields, rest) ← Json.readMembers (Fields.readMember depth) {} rest
    .ok (fields.toDeclaration, rest)

/-- The brackets that may be open inside a statement when its declaration stands alone: the
declaration, its body and the statement itself take one each. -/
def statementDepth : Nat := Json.maxDepth - 3

/-- Reads a whole text as a declaration. -/
def ofText (text : String) : Except (Fault Rejection) Declaration :=
  Json.readWhole (read statementDepth) text

end Declaration

end Mixin
