/-
**Reading a declaration from a JSON value.**

A declaration is an object, whose unknown members are ignored, or a list of its fields in order.  A
statement is an object that names its kind in some member, or a list of its kind and its content.
Members are looked at in document order and the first fault wins; the kind of a statement is looked
at before its content.
-/

import Mixin.Declaration.Field
import Mixin.Declaration.Rejection

namespace Mixin

namespace TypeName

/-- Reads a spelling where a name is due. -/
def ofSpelling (spelling : String) : Except Rejection TypeName :=
  match parse spelling with
  | .ok name => .ok name
  | .error error => .error (.invalidName error)

/-- Reads a name. -/
def ofJson : Json → Except Rejection TypeName
  | .str spelling => ofSpelling spelling
  | other => .error (.mismatch (.ofJson other) .text)

/-- Reads a name or null. -/
def ofJson? : Json → Except Rejection (Option TypeName)
  | .null => .ok none
  | other => do
    let name ← ofJson other
    .ok (some name)

/-- Reads names in order. -/
def listOfJson : List Json → Except Rejection (List TypeName)
  | [] => .ok []
  | item :: rest => do
    let name ← ofJson item
    let names ← listOfJson rest
    .ok (name :: names)

end TypeName

namespace Kind

/-- The kind that a word names, or the refusal of the word. -/
def ofWord (word : String) : Except Rejection Kind :=
  match ofWord? word with
  | some kind => .ok kind
  | none => .error (.unknownKind word)

/-- Reads a kind. -/
def ofJson : Json → Except Rejection Kind
  | .str word => ofWord word
  | other => .error (.mismatch (.ofJson other) .kind)

end Kind

namespace Statement

/-! ### Content -/

/-- Reads the content of a statement of a known kind. -/
def ofContent : Kind → Json → Except Rejection Statement
  | .use, .arr items => do
    let markers ← TypeName.listOfJson items
    .ok (.use markers)
  | .use, other => .error (.mismatch (.ofJson other) .sequence)
  | .member, .str text => .ok (.member text)
  | .member, other => .error (.mismatch (.ofJson other) .text)

/-- Reads the members of a statement besides its kind, of which one holds the content. -/
def ofMembers (kind : Kind) : Option Statement → List (String × Json) → Except Rejection Statement
  | none, [] => .error (.missingField kind.field)
  | some statement, [] => .ok statement
  | found, (key, value) :: rest =>
    if key = kind.field then
      match found with
      | some _ => .error (.duplicateField kind.field)
      | none => do
        let statement ← ofContent kind value
        ofMembers kind (some statement) rest
    else ofMembers kind found rest

/-- Reads what follows the kind in the list form: the content and nothing else. -/
def ofItems (kind : Kind) : List Json → Except Rejection Statement
  | [] => .error (.noContent kind)
  | content :: rest => do
    let statement ← ofContent kind content
    if rest.isEmpty then .ok statement else .error (.surplusContent (rest.length + 1))

/-! ### Whole statements -/

/-- The member that names the kind of a statement. -/
def kindKey : String := "kind"

/-- Takes the kind out of the members of a statement. -/
def splitKind : Option Kind → List (String × Json) →
    Except Rejection (Option Kind × List (String × Json))
  | found, [] => .ok (found, [])
  | found, (key, value) :: rest =>
    if key = kindKey then
      match found with
      | some _ => .error (.duplicateField kindKey)
      | none => do
        let kind ← Kind.ofJson value
        splitKind (some kind) rest
    else do
      let (kind, others) ← splitKind found rest
      .ok (kind, (key, value) :: others)

/-- Reads a statement whose kind, if any, has been taken out of its members. -/
def ofSplit : Option Kind × List (String × Json) → Except Rejection Statement
  | (none, _) => .error (.missingField kindKey)
  | (some kind, members) => ofMembers kind none members

/-- Reads a statement. -/
def ofJson : Json → Except Rejection Statement
  | .arr [] => .error (.missingField kindKey)
  | .arr (word :: items) => do
    let kind ← Kind.ofJson word
    ofItems kind items
  | .obj members => do
    let split ← splitKind none members
    ofSplit split
  | other => .error (.mismatch (.ofJson other) .statement)

/-- Reads statements in order. -/
def listOfJson : List Json → Except Rejection (List Statement)
  | [] => .ok []
  | item :: rest => do
    let statement ← ofJson item
    let statements ← listOfJson rest
    .ok (statement :: statements)

/-- Reads the body of a class. -/
def bodyOfJson : Json → Except Rejection (List Statement)
  | .arr items => listOfJson items
  | other => .error (.mismatch (.ofJson other) .sequence)

end Statement

namespace Fields

/-- Reads one field. -/
def put (fields : Fields) (value : Json) : Field → Except Rejection Fields
  | .name => do
    let name ← TypeName.ofJson? value
    .ok { fields with name := some name }
  | .parent => do
    let parent ← TypeName.ofJson? value
    .ok { fields with parent := some parent }
  | .body => do
    let body ← Statement.bodyOfJson value
    .ok { fields with body := some body }

/-- Reads the members of a declaration; unknown ones are ignored. -/
def ofMembers : Fields → List (String × Json) → Except Rejection Fields
  | fields, [] => .ok fields
  | fields, (key, value) :: rest =>
    match Field.ofKey? key with
    | none => ofMembers fields rest
    | some field =>
      if fields.has field then .error (.duplicateField field.key)
      else do
        let fields ← fields.put value field
        ofMembers fields rest

/-- Reads the list form of a declaration; `count` is the length of the whole list. -/
def ofItems (count : Nat) : List Field → Fields → List Json → Except Rejection Fields
  | _, fields, [] => .ok fields
  | [], _, _ :: _ => .error (.surplusFields count)
  | field :: others, fields, value :: rest => do
    let fields ← fields.put value field
    ofItems count others fields rest

end Fields

namespace Declaration

/-- Reads a declaration. -/
def ofJson : Json → Except Rejection Declaration
  | .obj members => do
    let fields ← Fields.ofMembers {} members
    .ok fields.toDeclaration
  | .arr items => do
    let fields ← Fields.ofItems items.length Field.all {} items
    .ok fields.toDeclaration
  | other => .error (.mismatch (.ofJson other) .declaration)

end Declaration

end Mixin
