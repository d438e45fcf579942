/-
**Fully qualified type names.**

A name is one or more segments joined by backslashes; a segment is a letter, an underscore or any
character outside ASCII, followed by more of these and digits.  One leading backslash is allowed in
writing and dropped, so that a name has exactly two spellings and one normal form.

* `TypeName.fault?` finds the leftmost fault of a text without its leading backslash.
* `TypeName.parse` reads a spelling, or says what is wrong with it (`InvalidName`).
* `TypeName.parse_text`: the normal form of a name is one of its spellings.
-/

import Mixin.Text.Quoted

namespace Mixin

/-- What is wrong with the spelling of a name. -/
inductive NameFault where
  /-- Nothing is left after the leading backslash. -/
  | empty
  /-- Two backslashes meet, or one ends the name. -/
  | emptySegment
  /-- A segment begins with a character that begins none. -/
  | badStart (segment : String)
  /-- A segment goes on with a character that continues none. -/
  | badCharacter (segment : String) (found : Char)
deriving DecidableEq, Repr

namespace NameFault

/-- The fault in words, to follow the quoted name. -/
def message : NameFault → String
  | empty => "is empty"
  | emptySegment => "contains an empty namespace segment"
  | badStart segment => "segment '" ++ segment ++ "' must start with a letter or underscore"
  | badCharacter segment found =>
    "segment '" ++ segment ++ "' contains invalid character " ++ Text.quotedChar found

end NameFault

/-- A spelling that is no name, and why. -/
structure InvalidName where
  /-- The spelling as it was given. -/
  raw : String
  /-- Its leftmost fault. -/
  fault : NameFault
deriving DecidableEq, Repr

namespace InvalidName

/-- The spelling between single quotes, then the fault. -/
def message (error : InvalidName) : String :=
  "'" ++ error.raw ++ "' " ++ error.fault.message

end InvalidName

namespace TypeName

/-! ### Characters and segments -/

/-- The character that joins segments. -/
def separator : Char := '\\'

/-- Characters outside ASCII are letters to a name. -/
def isWide (c : Char) : Bool := 128 ≤ c.toNat

/-- A segment begins with a letter or an underscore. -/
def isStart (c : Char) : Bool := c.isAlpha || c == '_' || isWide c

/-- A segment goes on with letters, digits and underscores. -/
def isContinue (c : Char) : Bool := c.isAlphanum || c == '_' || isWide c

/-- The parts of a text between separators; there is always at least one. -/
def segments : List Char → List (List Char)
  | [] => [[]]
  | c :: rest =>
    if c = separator then [] :: segments rest
    else match segments rest with
      | [] => [[c]]
      | segment :: more => (c :: segment) :: more

/-- The first fault within one segment. -/
def segmentFault? : List Char → Option NameFault
  | [] => some .emptySegment
  | first :: rest =>
    if isStart first then
      (rest.find? fun c => !isContinue c).map (.badCharacter (String.ofList (first :: rest)))
    else some (.badStart (String.ofList (first :: rest)))

/-- The leftmost fault of a text that has lost its leading separator. -/
def fault? (bare : List Char) : Option NameFault :=
  if bare.isEmpty then some .empty else (segments bare).findSome? segmentFault?

/-- Drops one leading separator, if there is one. -/
def dropSeparator : List Char → List Char
  | [] => []
  | c :: rest => if c = separator then rest else c :: rest

end TypeName

/-- A fully qualified name in normal form: without a leading separator, and without fault. -/
structure TypeName where
  /-- The normal form. -/
  text : String
  /-- No segment has a fault. -/
  faultless : TypeName.fault? text.toList = none
deriving DecidableEq

namespace TypeName

instance : ToString TypeName := ⟨TypeName.text⟩

/-- Names are ordered as their normal forms, character by character. -/
instance : Ord TypeName := ⟨fun left right => compare left.text right.text⟩

/-- Reads a spelling. -/
def parse (raw : String) : Except InvalidName TypeName :=
  match sound : fault? (dropSeparator raw.toList) with
  | some fault => .error ⟨raw, fault⟩
  | none =>
    .ok ⟨String.ofList (dropSeparator raw.toList), by rw [String.toList_ofList]; exact sound⟩

/-! ### The normal form is a spelling -/

/-- A text that begins with a separator begins with an empty segment, which is a fault. -/
theorem fault?_separator (rest : List Char) : fault? (separator :: rest) ≠ none := by
  simp [fault?, segments, segmentFault?]

/-- A faultless text has no leading separator to drop. -/
theorem dropSeparator_of_faultless {bare : List Char} (sound : fault? bare = none) :
    dropSeparator bare = bare := by
  cases bare with
  | nil => rfl
  | cons first rest =>
    rw [dropSeparator]
    split
    · rename_i leading
      exact absurd (leading ▸ sound) (fault?_separator rest)
    · rfl

/-- Reading succeeds on a text that is faultless once a separator is dropped. -/
theorem parse_of_faultless {raw : String} (sound : fault? (dropSeparator raw.toList) = none) :
    parse raw = .ok ⟨String.ofList (dropSeparator raw.toList),
      by rw [String.toList_ofList]; exact sound⟩ := by
  unfold parse
  split
  · rename_i fault found
    exact absurd (sound.symm.trans found) (by simp)
  · rfl

/-- Reading the normal form of a name gives the name back. -/
theorem parse_text (name : TypeName) : parse name.text = .ok name := by
  have unchanged := dropSeparator_of_faultless name.faultless
  rw [parse_of_faultless (by rw [unchanged]; exact name.faultless)]
  cases name
  simp only [unchanged, String.ofList_toList]

end TypeName

end Mixin
