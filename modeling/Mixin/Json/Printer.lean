/-
**Compact JSON text.**

No blank stands between tokens.  In strings only the quote mark, the backslash and the control
characters below the space are escaped, with the short escapes where JSON has them; every other
character stands for itself.  Hence no written value holds a line break.
-/

import Mixin.Decimal.Layout
import Mixin.Json.Basic

namespace Mixin.Json

/-! ### Strings -/

/-- The escape of a control character by its number, in four digits. -/
def numericEscape (code : Nat) : List Char :=
  ['\\', 'u', '0', '0', Nat.digitChar (code / 16), Nat.digitChar (code % 16)]

/-- A character as it stands between quote marks. -/
def escape (c : Char) : List Char :=
  match c with
  | '"' => ['\\', '"']
  | '\\' => ['\\', '\\']
  | '\x08' => ['\\', 'b']
  | '\t' => ['\\', 't']
  | '\n' => ['\\', 'n']
  | '\x0c' => ['\\', 'f']
  | '\r' => ['\\', 'r']
  | plain => if plain.toNat < 0x20 then numericEscape plain.toNat else [plain]

/-- A text between quote marks. -/
def writeString (text : String) : List Char :=
  '"' :: text.toList.flatMap escape ++ ['"']

/-! ### Numbers -/

/-- An integer in decimal. -/
def writeInt (value : Int) : List Char :=
  (if value < 0 then ['-'] else []) ++ Nat.toDigits 10 value.natAbs

/-- A number: an integer in decimal, a double in the shortest digits that read back. -/
def writeNumber : Number → List Char
  | .int value => writeInt value
  | .float value => Decimal.writeFloat .json value

/-! ### Values -/

/-- Joins written parts by commas. -/
def commaJoin : List (List Char) → List Char
  | [] => []
  | [part] => part
  | part :: rest => part ++ ',' :: commaJoin rest

mutual

/-- The compact text of a value. -/
def write : Json → List Char
  | null => ['n', 'u', 'l', 'l']
  | bool true => ['t', 'r', 'u', 'e']
  | bool false => ['f', 'a', 'l', 's', 'e']
  | num value => writeNumber value
  | str text => writeString text
  | arr items => '[' :: commaJoin (writeItems items) ++ [']']
  | obj members => '{' :: commaJoin (writeMembers members) ++ ['}']

/-- The texts of the items of an array. -/
def writeItems : List Json → List (List Char)
  | [] => []
  | item :: rest => write item :: writeItems rest

/-- The texts of the members of an object. -/
def writeMembers : List (String × Json) → List (List Char)
  | [] => []
  | (key, value) :: rest => (writeString key ++ ':' :: write value) :: writeMembers rest

end

/-- The compact text of a value as a string. -/
def compact (value : Json) : String :=
  String.ofList value.write

end Mixin.Json
