/-
**The strings of a JSON text.**

`readString` reads the rest of a string after its opening quote mark and decodes its escapes; a
character beyond the first plane may be written as a pair of numeric escapes, and half a pair is a
fault.  `skimString` passes over a string without decoding it: halves of pairs are not looked at, and
a bare control character is met before it is taken, so its position is one byte earlier.
-/

import Mixin.Json.Fault

namespace Mixin.Json

variable {ρ : Type}

/-! ### Escapes -/

/-- The value of a hexadecimal digit of either case. -/
def hexValue? (c : Char) : Option Nat :=
  if '0' ≤ c ∧ c ≤ '9' then some (c.toNat - '0'.toNat)
  else if 'a' ≤ c ∧ c ≤ 'f' then some (c.toNat - 'a'.toNat + 10)
  else if 'A' ≤ c ∧ c ≤ 'F' then some (c.toNat - 'A'.toNat + 10)
  else none

/-- The number in the next four characters, if they are all hexadecimal digits. -/
def hexQuad? : List Char → Option (Nat × List Char)
  | a :: b :: c :: d :: rest => do
    let a ← hexValue? a
    let b ← hexValue? b
    let c ← hexValue? c
    let d ← hexValue? d
    some (((a * 16 + b) * 16 + c) * 16 + d, rest)
  | _ => none

/-- The number of a numeric escape; the next four bytes are its digits or the fault. -/
def readQuad : Reader ρ Nat := fun text =>
  match hexQuad? text with
  | some found => .ok found
  | none =>
    if byteCount text < 4 then .error (.malformed .endInString 0)
    else .error (.malformed .invalidEscape (byteCount text - 4))

/-- The first half of a pair of numeric escapes. -/
def isLeading (code : Nat) : Bool := 0xD800 ≤ code && code ≤ 0xDBFF

/-- The second half of a pair of numeric escapes. -/
def isTrailing (code : Nat) : Bool := 0xDC00 ≤ code && code ≤ 0xDFFF

/-- The character that a pair of halves stands for. -/
def joinPair (leading trailing : Nat) : Char :=
  Char.ofNat (0x10000 + (leading - 0xD800) * 0x400 + (trailing - 0xDC00))

/-- The second half of a pair, from the backslash on. -/
def readTrailing (leading : Nat) : Reader ρ Char
  | [] => .error (.on .endInString [])
  | '\\' :: rest =>
    match rest with
    | [] => .error (.on .endInString [])
    | 'u' :: digits => do
      let (code, after) ← readQuad digits
      if isTrailing code then .ok (joinPair leading code, after)
      else .error (.before .loneSurrogate after)
    | other => .error (.on .unfinishedPair other)
  | other => .error (.on .unfinishedPair other)

/-- The character of a numeric escape, from its digits on. -/
def readNumeric : Reader ρ Char := fun text => do
  let (code, after) ← readQuad text
  if isTrailing code then .error (.before .loneSurrogate after)
  else if isLeading code then readTrailing code after
  else .ok (Char.ofNat code, after)

/-- The character that a one-letter escape stands for. -/
def shortEscape? : Char → Option Char
  | '"' => some '"'
  | '\\' => some '\\'
  | '/' => some '/'
  | 'b' => some '\x08'
  | 'f' => some '\x0c'
  | 'n' => some '\n'
  | 'r' => some '\r'
  | 't' => some '\t'
  | _ => none

/-- The character of an escape, from after its backslash. -/
def readEscape : Reader ρ Char
  | [] => .error (.on .endInString [])
  | letter :: rest =>
    if letter = 'u' then readNumeric rest
    else match shortEscape? letter with
      | some c => .ok (c, rest)
      | none => .error (.on .invalidEscape (letter :: rest))

/-- Characters below the space may not stand bare in a string. -/
def isControl (c : Char) : Bool := c.toNat < 0x20

/-! ### Whole strings -/

/-- The characters up to the closing quote mark.  Every step takes a character, so the length of
the text is enough steps, and without a step left the text is at its end. -/
def readChars : Nat → Reader ρ (List Char)
  | 0, _ => .error (.on .endInString [])
  | _ + 1, [] => .error (.on .endInString [])
  | steps + 1, c :: rest =>
    if c = '"' then .ok ([], rest)
    else if c = '\\' then do
      let (first, rest) ← readEscape rest
      let (others, rest) ← readChars steps rest
      .ok (first :: others, rest)
    else if isControl c then .error (.on .controlCharacter (c :: rest))
    else do
      let (others, rest) ← readChars steps rest
      .ok (c :: others, rest)

/-- A string, from after its opening quote mark. -/
def readString : Reader ρ String := fun text => do
  let (chars, rest) ← readChars text.length text
  .ok (String.ofList chars, rest)

/-- Passes over an escape, from after its backslash. -/
def skimEscape : Reader ρ Unit
  | [] => .error (.on .endInString [])
  | letter :: rest =>
    if letter = 'u' then do
      let (_, rest) ← readQuad rest
      .ok ((), rest)
    else match shortEscape? letter with
      | some _ => .ok ((), rest)
      | none => .error (.on .invalidEscape (letter :: rest))

/-- Passes over the characters up to the closing quote mark. -/
def skimChars : Nat → Reader ρ Unit
  | 0, _ => .error (.on .endInString [])
  | _ + 1, [] => .error (.on .endInString [])
  | steps + 1, c :: rest =>
    if c = '"' then .ok ((), rest)
    else if c = '\\' then do
      let (_, rest) ← skimEscape rest
      skimChars steps rest
    else if isControl c then .error (.before .controlCharacter (c :: rest))
    else skimChars steps rest

/-- Passes over a string, from after its opening quote mark. -/
def skimString : Reader ρ Unit := fun text =>
  skimChars text.length text

end Mixin.Json
