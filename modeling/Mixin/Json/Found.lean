/-
**What was found in the place of something else.**

A message about a value of the wrong type shows a scalar and names an array or an object.
-/

import Mixin.Decimal.Layout
import Mixin.Json.Basic
import Mixin.Text.Quoted

namespace Mixin

/-- What stands in the place of something else. -/
inductive Found where
  | null
  | bool (value : Bool)
  | number (value : Number)
  | text (value : String)
  | sequence
  | map
deriving DecidableEq

namespace Found

/-- What a value looks like from outside. -/
def ofJson : Json → Found
  | .null => null
  | .bool value => bool value
  | .num value => number value
  | .str value => text value
  | .arr _ => sequence
  | .obj _ => map

/-- The finding in words; scalars are shown. -/
def message : Found → String
  | null => "null"
  | bool value => "boolean `" ++ (if value then "true" else "false") ++ "`"
  | number (.int value) => "integer `" ++ toString value ++ "`"
  | number (.float value) =>
    "floating point `" ++ String.ofList (Decimal.writeFloat .json value) ++ "`"
  | text value => "string " ++ Text.quotedText value
  | sequence => "sequence"
  | map => "map"

end Found

end Mixin
