/-
**Quoted text in messages.**

A text or a single character is shown between quote marks, with a backslash before the mark and
before the backslash, short names for the commonest control characters, and the code point in
braces for every other character that does not show on its own.
-/

import Mixin.Text.Printable

namespace Mixin.Text

/-- The digits of a number in the given base, most significant first. -/
def digits (base number : Nat) : List Char :=
  Nat.toDigits base number

/-- How one character stands between quote marks `mark`. -/
def quoteChar (mark c : Char) : List Char :=
  if c = mark then ['\\', c]
  else match c with
    | '\\' => ['\\', '\\']
    | '\x00' => ['\\', '0']
    | '\t' => ['\\', 't']
    | '\n' => ['\\', 'n']
    | '\r' => ['\\', 'r']
    | shown =>
      if isPrintable shown then [shown]
      else ['\\', 'u', '{'] ++ digits 16 shown.toNat ++ ['}']

/-- A text between quote marks. -/
def quoted (mark : Char) (text : List Char) : String :=
  String.ofList (mark :: text.flatMap (quoteChar mark) ++ [mark])

/-- A text between double quote marks. -/
def quotedText (text : String) : String :=
  quoted '"' text.toList

/-- A single character between single quote marks. -/
def quotedChar (c : Char) : String :=
  quoted '\x27' [c]

end Mixin.Text
