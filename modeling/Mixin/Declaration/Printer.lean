/-
**Declarations as JSON.**

Every field is written, an absent name as null; a statement names its kind first.
-/

import Mixin.Declaration.Basic
import Mixin.Json.Printer

namespace Mixin

namespace TypeName

/-- A name is a string in normal form. -/
def toJson (name : TypeName) : Json := .str name.text

end TypeName

namespace Statement

/-- A statement is an object with its kind and what it holds. -/
def toJson : Statement → Json
  | use markers =>
    .obj [("kind", .str "capability_use"), ("markers", .arr (markers.map TypeName.toJson))]
  | member text => .obj [("kind", .str "member"), ("text", .str text)]

end Statement

namespace Declaration

/-- An optional name is a string or null. -/
def nameToJson : Option TypeName → Json
  | some name => name.toJson
  | none => .null

/-- A declaration is an object with its three fields. -/
def toJson (d : Declaration) : Json :=
  .obj [("name", nameToJson d.name), ("extends", nameToJson d.parent),
    ("stmts", .arr (d.body.map Statement.toJson))]

end Declaration

end Mixin
