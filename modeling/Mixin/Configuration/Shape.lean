/-
**Shapes of configuration documents.**

A `Shape` says which types the parts of a document have.  `Shape.violations` finds every value of
another type, in document order, and looks no further inside one.
-/

import Mixin.Json.Printer

namespace Mixin

/-- The types that the parts of a document have. -/
inductive Shape where
  /-- A string. -/
  | text
  /-- An array whose items have a shape. -/
  | list (item : Shape)
  /-- An object whose members have a shape. -/
  | record (member : Shape)
deriving DecidableEq, Repr

/-- A value that is not of the type its place asks for. -/
structure Violation where
  /-- The value. -/
  value : Json
  /-- The name of the type. -/
  wanted : String

namespace Violation

/-- The violation in words, with the value shown. -/
def message (violation : Violation) : String :=
  violation.value.compact ++ " is not of type \"" ++ violation.wanted ++ "\""

end Violation

namespace Shape

/-- A mapping document: lists of strings by base type. -/
def mapping : Shape := record (list text)

/-- A hierarchy document: a string for each class. -/
def hierarchy : Shape := record text

/-- The values in a document that are not of the type their place asks for. -/
def violations : Shape → Json → List Violation
  | text, .str _ => []
  | text, other => [⟨other, "string"⟩]
  | list item, .arr items => items.flatMap item.violations
  | list _, other => [⟨other, "array"⟩]
  | record member, .obj members => members.flatMap fun pair => member.violations pair.2
  | record _, other => [⟨other, "object"⟩]

end Shape

end Mixin
