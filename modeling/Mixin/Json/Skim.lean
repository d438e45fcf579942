/-
**Skimming a JSON value.**

A value that nobody asked for is passed over.  Skimming knows no limit of depth and no range of
numbers, and it names some faults differently from reading: after a comma in an array a value is
due, after a comma in an object a key.
-/

import Mixin.Json.Sequence

namespace Mixin.Json

open Text (dropJsonBlank)

variable {ρ : Type}

/-- After an item of an array: its end, or the comma before the next item. -/
def skimItemsFrom (skim : Reader ρ Unit) : Nat → Reader ρ Unit
  | 0, _ => .error (.on .endInList [])
  | steps + 1, text =>
    match dropJsonBlank text with
    | [] => .error (.on .endInList [])
    | c :: rest =>
      if c = ']' then .ok ((), rest)
      else if c = ',' then do
        let (_, rest) ← skim rest
        skimItemsFrom skim steps rest
      else .error (.on .expectedCommaOrBracket (c :: rest))

/-- The items of an array, from after its bracket. -/
def skimItems (skim : Reader ρ Unit) : Reader ρ Unit := fun text =>
  match dropJsonBlank text with
  | [] => .error (.on .endInList [])
  | c :: rest =>
    if c = ']' then .ok ((), rest)
    else do
      let (_, rest) ← skim (c :: rest)
      skimItemsFrom skim rest.length rest

/-- One member of an object: a key, a colon and a value. -/
def skimMember (skim : Reader ρ Unit) : Reader ρ Unit := fun text =>
  match dropJsonBlank text with
  | [] => .error (.on .endInObject [])
  | c :: rest =>
    if c = '"' then do
      let (_, rest) ← skimString rest
      let (_, rest) ← readColon rest
      skim rest
    else .error (.on .keyNotString (c :: rest))

/-- After a member of an object: its end, or the comma before the next member. -/
def skimMembersFrom (skim : Reader ρ Unit) : Nat → Reader ρ Unit
  | 0, _ => .error (.on .endInObject [])
  | steps + 1, text =>
    match dropJsonBlank text with
    | [] => .error (.on .endInObject [])
    | c :: rest =>
      if c = '}' then .ok ((), rest)
      else if c = ',' then do
        let (_, rest) ← skimMember skim rest
        skimMembersFrom skim steps rest
      else .error (.on .expectedCommaOrBrace (c :: rest))

/-- The members of an object, from after its brace. -/
def skimMembers (skim : Reader ρ Unit) : Reader ρ Unit := fun text =>
  match dropJsonBlank text with
  | [] => .error (.on .endInObject [])
  | c :: rest =>
    if c = '}' then .ok ((), rest)
    else do
      let (_, rest) ← skimMember skim (c :: rest)
      skimMembersFrom skim rest.length rest

/-- Passes over a value whose parts are passed over by `inner`. -/
def skimWith (inner : Reader ρ Unit) : Reader ρ Unit := fun text =>
  match dropJsonBlank text with
  | [] => .error (.on .endInValue [])
  | c :: rest =>
    if c = 'n' then readWord ['u', 'l', 'l'] rest
    else if c = 't' then readWord ['r', 'u', 'e'] rest
    else if c = 'f' then readWord ['a', 'l', 's', 'e'] rest
    else if c = '"' then skimString rest
    else if c = '-' then skimNumber rest
    else if c.isDigit then skimNumber (c :: rest)
    else if c = '[' then skimItems inner rest
    else if c = '{' then skimMembers inner rest
    else .error (.on .expectedValue (c :: rest))

/-- Passes over a value with at most `depth` brackets open at once. -/
def skimWithin : Nat → Reader ρ Unit
  | 0, _ => .error (.on .endInValue [])
  | depth + 1, text => skimWith (skimWithin depth) text

/-- Passes over a value.  No more brackets can be open than the text has characters, and one level
more finds the end of the text. -/
def skimValue : Reader ρ Unit := fun text =>
  skimWithin (text.length + 1) text

end Mixin.Json
