/-
**Reading a JSON value.**

`readValue depth` reads one value in which at most `depth` brackets are open at once, with every
member of an object in the order of the text, repeated keys and all.  `collapse` merges repeated
keys: a key keeps its first place and takes its last value.  `readWhole` runs any reader on a whole
text, after which only blanks may follow, and `parse` reads a document: a value, collapsed.
-/

import Mixin.Json.Sequence
import Mixin.Table

namespace Mixin

namespace Json

open Text (dropJsonBlank)

variable {ρ α : Type}

/-- The number of brackets that may be open at once. -/
def maxDepth : Nat := 127

/-! ### Repeated keys -/

mutual

/-- A value whose objects repeat no key, at any depth. -/
def collapse : Json → Json
  | arr items => arr (collapseItems items)
  | obj members => obj (collapseMembers [] members)
  | scalar => scalar

/-- The items of an array, collapsed. -/
def collapseItems : List Json → List Json
  | [] => []
  | item :: rest => collapse item :: collapseItems rest

/-- The members of an object, collapsed and placed after those already placed. -/
def collapseMembers : List (String × Json) → List (String × Json) → List (String × Json)
  | placed, [] => placed
  | placed, (key, value) :: rest => collapseMembers (place key (collapse value) placed) rest

end

/-! ### Values -/

/-- Reads a value whose parts are read by `inner`; without `inner` no bracket may open. -/
def readWith (inner : Option (Reader ρ Json)) : Reader ρ Json := fun text => do
  match ← readOpening text with
  | .scalar value rest => .ok (value, rest)
  | .list rest =>
    match inner with
    | none => .error (.before .tooDeep rest)
    | some read =>
      let (items, rest) ← readItems read rest
      .ok (.arr items, rest)
  | .object rest =>
    match inner with
    | none => .error (.before .tooDeep rest)
    | some read =>
      let field (members : List (String × Json)) (key : String) :
          Except (Fault ρ) (Reader ρ (List (String × Json))) :=
        .ok fun text => do
          let (value, rest) ← read text
          .ok (members ++ [(key, value)], rest)
      let (members, rest) ← readMembers field [] rest
      .ok (.obj members, rest)

/-- Reads a value in which at most `depth` brackets are open at once. -/
def readValue : Nat → Reader ρ Json
  | 0, text => readWith none text
  | depth + 1, text => readWith (some (readValue depth)) text

/-- Runs a reader on a whole text; only blanks may follow what it reads. -/
def readWhole (read : Reader ρ α) (text : String) : Except (Fault ρ) α := do
  let (value, rest) ← read text.toList
  match dropJsonBlank rest with
  | [] => .ok value
  | other => .error (.on .trailingCharacters other)

/-- Reads a text as a value, with the members of its objects as they are written. -/
def parseRaw (text : String) : Except (Fault Empty) Json :=
  readWhole (readValue maxDepth) text

/-- Reads a document. -/
def parse (text : String) : Except (Fault Empty) Json := do
  let value ← parseRaw text
  .ok value.collapse

end Json

namespace Fault

variable {ρ : Type}

/-- What happened, without where. -/
def reason (explain : ρ → String) : Fault ρ → String
  | malformed cause _ => cause.message
  | rejected why => explain why

/-- What happened in a text and, for a fault of the grammar, where. -/
def message (explain : ρ → String) (text : String) : Fault ρ → String
  | malformed cause left => cause.message ++ (Place.before text.toList left).message
  | rejected why => explain why

end Fault

end Mixin
