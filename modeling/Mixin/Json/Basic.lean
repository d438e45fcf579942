/-
**JSON values.**

A value keeps what a document says about it: the members of an object stand in document order, and a
number is an integer or a double, never both.
-/

namespace Mixin

/-- A JSON number: an integer within sixty-four bits, or a double. -/
inductive Number where
  | int (value : Int)
  | float (value : Float)
deriving DecidableEq, Inhabited

/-- A JSON value; the members of an object are in document order. -/
inductive Json where
  | null
  | bool (value : Bool)
  | num (value : Number)
  | str (text : String)
  | arr (items : List Json)
  | obj (members : List (String × Json))
deriving Inhabited

namespace Json

/-- The integer value of a natural number. -/
def nat (value : Nat) : Json := num (.int value)

/-- The value of an object's member. -/
def member? (key : String) : Json → Option Json
  | obj members => members.lookup key
  | _ => none

/-- The kind of a value, with its article where it takes one. -/
def kind : Json → String
  | null => "null"
  | bool _ => "a boolean"
  | num _ => "a number"
  | str _ => "a string"
  | arr _ => "an array"
  | obj _ => "an object"

end Json

end Mixin
