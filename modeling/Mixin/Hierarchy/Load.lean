/-
**Loading a hierarchy.**

A hierarchy is built from a table of texts, its draft, entry by entry: the class is looked at first,
then its parent, then whether the class was seen before.
-/

import Mixin.Configuration.Document
import Mixin.Hierarchy.Basic

namespace Mixin

namespace Hierarchy

/-- A hierarchy as it is written: a parent for each class, nothing checked. -/
abbrev Draft := Table String String

/-- Reads a name of a hierarchy. -/
def parseName (raw : String) : Except ConfigurationError TypeName :=
  match TypeName.parse raw with
  | .ok name => .ok name
  | .error error => .error (.invalidClass error)

/-- Adds one written entry. -/
def addEntry (hierarchy : Hierarchy) (raw : String × String) :
    Except ConfigurationError Hierarchy := do
  let name ← parseName raw.1
  let parent ← parseName raw.2
  if name ∈ hierarchy.classes then .error (.duplicateClass name)
  else .ok (hierarchy.insert name parent)

/-- Adds written entries one by one. -/
def addEntries : Hierarchy → List (String × String) → Except ConfigurationError Hierarchy
  | hierarchy, [] => .ok hierarchy
  | hierarchy, raw :: rest => do
    let grown ← hierarchy.addEntry raw
    addEntries grown rest

/-- Builds a hierarchy from its draft. -/
def ofDraft (draft : Draft) : Except ConfigurationError Hierarchy :=
  addEntries empty draft.pairs

/-! ### Values and documents -/

/-- The texts in the members of a hierarchy. -/
def draftEntries : List (String × Json) → Except ConfigurationError (List (String × String))
  | [] => .ok []
  | (name, .str parent) :: rest => do
    let entries ← draftEntries rest
    .ok ((name, parent) :: entries)
  | (_, other) :: _ => .error (.wrongShape (.notParent other))

/-- The draft in a JSON value. -/
def draftOfJson : Json → Except ConfigurationError Draft
  | .obj members => do
    let entries ← draftEntries members
    .ok (Table.ofPairs entries)
  | other => .error (.wrongShape (.notClasses other))

/-- Builds a hierarchy from a JSON value. -/
def ofJson (value : Json) : Except ConfigurationError Hierarchy := do
  let draft ← draftOfJson value
  ofDraft draft

/-- Loads a hierarchy from a text that came from `origin`. -/
def load (text origin : String) : Except ConfigurationError Hierarchy := do
  let document ← readDocument .hierarchy text origin
  ofJson document

end Hierarchy

end Mixin
