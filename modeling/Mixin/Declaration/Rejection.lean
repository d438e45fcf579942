/-
**Why well-formed JSON is no declaration.**

A `Rejection` is a cause; `Rejection.message` puts it into words, naming what was found and what was
expected.
-/

import Mixin.Json.Found
import Mixin.TypeName

namespace Mixin

/-- The kinds of statement. -/
inductive Kind where
  | use
  | member
deriving DecidableEq, Repr

namespace Kind

/-- The word that names a kind. -/
def word : Kind → String
  | use => "capability_use"
  | member => "member"

/-- The kind that a word names. -/
def ofWord? (word : String) : Option Kind :=
  if word = use.word then some use else if word = member.word then some member else none

/-- The field that holds what a statement of the kind says. -/
def field : Kind → String
  | use => "markers"
  | member => "text"

end Kind

/-- What was expected. -/
inductive Expected where
  | declaration
  | statement
  | kind
  | text
  | sequence
deriving DecidableEq, Repr

namespace Expected

/-- The expectation in words. -/
def message : Expected → String
  | declaration => "struct ClassDeclaration"
  | statement => "internally tagged enum ClassStmt"
  | kind => "variant identifier"
  | text => "a string"
  | sequence => "a sequence"

end Expected

/-- Why a value is no declaration. -/
inductive Rejection where
  /-- A value of another type stands in the place. -/
  | mismatch (found : Found) (expected : Expected)
  /-- A name is misspelt. -/
  | invalidName (error : InvalidName)
  /-- A field is given twice. -/
  | duplicateField (field : String)
  /-- A field that has no default is not given. -/
  | missingField (field : String)
  /-- A statement is of no known kind. -/
  | unknownKind (word : String)
  /-- A statement in list form ends after its kind. -/
  | noContent (kind : Kind)
  /-- A statement in list form goes on after its content. -/
  | surplusContent (count : Nat)
  /-- A declaration in list form goes on after its last field. -/
  | surplusFields (count : Nat)
deriving DecidableEq

namespace Rejection

/-- What a statement in list form should have held. -/
def contentMessage : Kind → String
  | .use => "struct CapabilityUse with 1 element"
  | .member => "struct variant ClassStmt::Member with 1 element"

/-- The rejection in words. -/
def message : Rejection → String
  | mismatch found expected => "invalid type: " ++ found.message ++ ", expected " ++ expected.message
  | invalidName error => error.message
  | duplicateField field => "duplicate field `" ++ field ++ "`"
  | missingField field => "missing field `" ++ field ++ "`"
  | unknownKind word =>
    "unknown variant `" ++ word ++ "`, expected `capability_use` or `member`"
  | noContent kind => "invalid length 0, expected " ++ contentMessage kind
  | surplusContent count =>
    "invalid length " ++ toString count ++ ", expected 1 element in sequence"
  | surplusFields count =>
    "invalid length " ++ toString count ++ ", expected fewer elements in array"

end Rejection

end Mixin
