/-
**What can go wrong while a JSON text is read, and where.**

A reader takes the text that is left and gives a value with the text left after it.  A fault of the
grammar (`Fault.malformed`) says how many bytes of the text follow its position: counting from the
end keeps every reader independent of what was read before it.  A reader for a richer type may
also refuse well-formed text (`Fault.rejected`), for reasons of its own type `ρ`.

`Place.before` turns the count into a line and a column.  Lines are counted from one; a column is
the number of bytes on the line up to the position.
-/

namespace Mixin

/-- The faults of the JSON grammar. -/
inductive Cause where
  | endInValue
  | endInString
  | endInList
  | endInObject
  | expectedValue
  | expectedIdent
  | expectedColon
  | expectedCommaOrBracket
  | expectedCommaOrBrace
  | keyNotString
  | trailingComma
  | trailingCharacters
  | controlCharacter
  | invalidEscape
  | loneSurrogate
  | unfinishedPair
  | invalidNumber
  | numberOutOfRange
  | tooDeep
deriving DecidableEq, Repr

namespace Cause

/-- The cause in words. -/
def message : Cause → String
  | endInValue => "EOF while parsing a value"
  | endInString => "EOF while parsing a string"
  | endInList => "EOF while parsing a list"
  | endInObject => "EOF while parsing an object"
  | expectedValue => "expected value"
  | expectedIdent => "expected ident"
  | expectedColon => "expected `:`"
  | expectedCommaOrBracket => "expected `,` or `]`"
  | expectedCommaOrBrace => "expected `,` or `\x7d`"
  | keyNotString => "key must be a string"
  | trailingComma => "trailing comma"
  | trailingCharacters => "trailing characters"
  | controlCharacter => "control character (\\u0000-\\u001F) found while parsing a string"
  | invalidEscape => "invalid escape"
  | loneSurrogate => "lone leading surrogate in hex escape"
  | unfinishedPair => "unexpected end of hex escape"
  | invalidNumber => "invalid number"
  | numberOutOfRange => "number out of range"
  | tooDeep => "recursion limit exceeded"

/-- Whether the text ended too early. -/
def isEnd : Cause → Bool
  | endInValue | endInString | endInList | endInObject => true
  | _ => false

end Cause

/-! ### Bytes and places -/

/-- The number of bytes a text takes. -/
def byteCount : List Char → Nat
  | [] => 0
  | c :: rest => c.utf8Size + byteCount rest

/-- A position in a text. -/
structure Place where
  /-- The line, from one. -/
  line : Nat
  /-- The number of bytes on the line before the position. -/
  column : Nat
deriving DecidableEq, Repr

namespace Place

/-- Moves past as many bytes of a text as are asked for, possibly into the middle of a character. -/
def advance : Place → Nat → List Char → Place
  | place, _, [] => place
  | place, 0, _ => place
  | place, bytes + 1, c :: rest =>
    if c = '\n' then advance ⟨place.line + 1, 0⟩ bytes rest
    else if bytes + 1 < c.utf8Size then ⟨place.line, place.column + (bytes + 1)⟩
    else advance ⟨place.line, place.column + c.utf8Size⟩ (bytes + 1 - c.utf8Size) rest

/-- The position that has the given number of bytes after it. -/
def before (text : List Char) (left : Nat) : Place :=
  advance ⟨1, 0⟩ (byteCount text - left) text

/-- The position in words, to follow what happened there. -/
def message (place : Place) : String :=
  " at line " ++ toString place.line ++ " column " ++ toString place.column

end Place

/-! ### Faults and readers -/

/-- Why reading stopped: the grammar was broken, or the value was refused for a reason in `ρ`. -/
inductive Fault (ρ : Type) where
  /-- The grammar is broken; `left` bytes follow the position. -/
  | malformed (cause : Cause) (left : Nat)
  /-- The value is well formed and not wanted. -/
  | rejected (why : ρ)
deriving DecidableEq, Repr

/-- A reader gives a value and the text after it. -/
abbrev Reader (ρ α : Type) := List Char → Except (Fault ρ) (α × List Char)

namespace Fault

variable {ρ : Type}

/-- A fault whose position is just after the first byte of `rest`, or at the end of the text. -/
def on (cause : Cause) (rest : List Char) : Fault ρ :=
  malformed cause (byteCount rest - 1)

/-- A fault whose position is just before `rest`. -/
def before (cause : Cause) (rest : List Char) : Fault ρ :=
  malformed cause (byteCount rest)

end Fault

end Mixin
