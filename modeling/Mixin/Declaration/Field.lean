/-
**The fields of a declaration while it is being read.**

`Fields` holds what has been given so far, so that a field given twice can be told from one given
once; what is never given has a default.
-/

import Mixin.Declaration.Basic

namespace Mixin

/-- The fields of a declaration. -/
inductive Field where
  | name
  | parent
  | body
deriving DecidableEq, Repr

namespace Field

/-- The key under which a field is written. -/
def key : Field → String
  | name => "name"
  | parent => "extends"
  | body => "stmts"

/-- The fields in the order of the list form. -/
def all : List Field := [name, parent, body]

/-- The field that a key stands for. -/
def ofKey? (key : String) : Option Field :=
  all.find? fun field => field.key = key

end Field

/-- The fields given so far. -/
structure Fields where
  name : Option (Option TypeName) := none
  parent : Option (Option TypeName) := none
  body : Option (List Statement) := none

namespace Fields

/-- Whether a field has been given. -/
def has (fields : Fields) : Field → Bool
  | .name => fields.name.isSome
  | .parent => fields.parent.isSome
  | .body => fields.body.isSome

/-- The declaration with defaults for what was not given. -/
def toDeclaration (fields : Fields) : Declaration where
  name := fields.name.getD none
  parent := fields.parent.getD none
  body := fields.body.getD []

end Fields

end Mixin
