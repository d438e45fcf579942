/-
**The punctuation of JSON: literals, arrays and objects.**

`readOpening` looks at how a value begins: a scalar is read whole, a bracket is passed and left to
the caller.  `readItems` reads an array of anything after its bracket, and `readMembers` an object
into anything after its brace; both are given the reader of what they hold.  A member's reader is
chosen by its key before the colon is looked for, so a key can be refused at once.

Every step of the two loops takes at least one character, so they run for as many steps as the text
has characters; without a step left the text is at its end, which is the fault they then report.
-/

import Mixin.Json.Numeral
import Mixin.Json.Text
import Mixin.Text.Blank

namespace Mixin.Json

open Text (dropJsonBlank)

variable {ρ α σ : Type}

/-! ### Openings -/

/-- Takes the given characters, the rest of a literal. -/
def readWord : List Char → Reader ρ Unit
  | [], text => .ok ((), text)
  | _ :: _, [] => .error (.on .endInValue [])
  | expected :: others, c :: rest =>
    if c = expected then readWord others rest else .error (.on .expectedIdent (c :: rest))

/-- How a value begins. -/
inductive Opening where
  /-- A scalar, read whole. -/
  | scalar (value : Json) (rest : List Char)
  /-- An array, from after its bracket. -/
  | list (rest : List Char)
  /-- An object, from after its brace. -/
  | object (rest : List Char)

/-- Reads the beginning of a value. -/
def readOpening (text : List Char) : Except (Fault ρ) Opening :=
  match dropJsonBlank text with
  | [] => .error (.on .endInValue [])
  | c :: rest =>
    if c = 'n' then do
      let (_, rest) ← readWord ['u', 'l', 'l'] rest
      .ok (.scalar .null rest)
    else if c = 't' then do
      let (_, rest) ← readWord ['r', 'u', 'e'] rest
      .ok (.scalar (.bool true) rest)
    else if c = 'f' then do
      let (_, rest) ← readWord ['a', 'l', 's', 'e'] rest
      .ok (.scalar (.bool false) rest)
    else if c = '"' then do
      let (text, rest) ← readString rest
      .ok (.scalar (.str text) rest)
    else if c = '-' then do
      let (value, rest) ← readNumber true rest
      .ok (.scalar (.num value) rest)
    else if c.isDigit then do
      let (value, rest) ← readNumber false (c :: rest)
      .ok (.scalar (.num value) rest)
    else if c = '[' then .ok (.list rest)
    else if c = '{' then .ok (.object rest)
    else .error (.on .expectedValue (c :: rest))

/-! ### Arrays -/

/-- What comes next inside brackets: their end, already taken, or one more part. -/
inductive Step where
  | close (rest : List Char)
  | part (rest : List Char)

/-- Finds the next item of an array, with the comma before it unless it is the first. -/
def nextItem (first : Bool) (text : List Char) : Except (Fault ρ) Step :=
  match dropJsonBlank text with
  | [] => .error (.on .endInList [])
  | c :: rest =>
    if c = ']' then .ok (.close rest)
    else if first then .ok (.part (c :: rest))
    else if c = ',' then
      match dropJsonBlank rest with
      | [] => .error (.on .endInValue [])
      | d :: after =>
        if d = ']' then .error (.on .trailingComma (d :: after)) else .ok (.part (d :: after))
    else .error (.on .expectedCommaOrBracket (c :: rest))

/-- The items of an array in at most the given number of steps. -/
def readItemsFrom (read : Reader ρ α) : Nat → Bool → Reader ρ (List α)
  | 0, _, _ => .error (.on .endInList [])
  | steps + 1, first, text => do
    match ← nextItem first text with
    | .close rest => .ok ([], rest)
    | .part rest =>
      let (item, rest) ← read rest
      let (others, rest) ← readItemsFrom read steps false rest
      .ok (item :: others, rest)

/-- The items of an array, from after its bracket. -/
def readItems (read : Reader ρ α) : Reader ρ (List α) := fun text =>
  readItemsFrom read text.length true text

/-- The items of an array of which one has been read. -/
def readMoreItems (read : Reader ρ α) : Reader ρ (List α) := fun text =>
  readItemsFrom read text.length false text

/-! ### Objects -/

/-- Takes the quote mark that must open a key. -/
def openKey (text : List Char) : Except (Fault ρ) Step :=
  match text with
  | '"' :: rest => .ok (.part rest)
  | other => .error (.on .keyNotString other)

/-- Finds the next key of an object, with the comma before it unless it is the first. -/
def nextKey (first : Bool) (text : List Char) : Except (Fault ρ) Step :=
  match dropJsonBlank text with
  | [] => .error (.on .endInObject [])
  | c :: rest =>
    if c = '}' then .ok (.close rest)
    else if first then openKey (c :: rest)
    else if c = ',' then
      match dropJsonBlank rest with
      | [] => .error (.on .endInValue [])
      | d :: after =>
        if d = '}' then .error (.on .trailingComma (d :: after)) else openKey (d :: after)
    else .error (.on .expectedCommaOrBrace (c :: rest))

/-- Takes the colon between a key and its value. -/
def readColon : Reader ρ Unit := fun text =>
  match dropJsonBlank text with
  | [] => .error (.on .endInObject [])
  | c :: rest => if c = ':' then .ok ((), rest) else .error (.on .expectedColon (c :: rest))

/-- The members of an object in at most the given number of steps. -/
def readMembersFrom (field : σ → String → Except (Fault ρ) (Reader ρ σ)) :
    Nat → Bool → σ → Reader ρ σ
  | 0, _, _, _ => .error (.on .endInObject [])
  | steps + 1, first, state, text => do
    match ← nextKey first text with
    | .close rest => .ok (state, rest)
    | .part rest =>
      let (key, rest) ← readString rest
      let read ← field state key
      let (_, rest) ← readColon rest
      let (state, rest) ← read rest
      readMembersFrom field steps false state rest

/-- The members of an object, from after its brace, gathered into a state. -/
def readMembers (field : σ → String → Except (Fault ρ) (Reader ρ σ)) (start : σ) : Reader ρ σ :=
  fun text => readMembersFrom field text.length true start text

end Mixin.Json
