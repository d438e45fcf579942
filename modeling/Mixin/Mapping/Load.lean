/-
**Loading a mapping.**

A mapping is built from a table of texts, its draft, entry by entry; the first fault of the first
faulty entry is the error.  A base is looked at before its markers, and for being empty or blank
before its spelling.  A draft comes from a JSON value, whose shape is checked as a whole before any
name is, or from a document.

The events are those of a mapping that has been built: of the markers dropped on the way to an error
nothing is told, as of nothing else that was built by then.
-/

import Mixin.Configuration.Document
import Mixin.Event
import Mixin.Mapping.Basic

namespace Mixin

namespace Mapping

/-- A mapping as it is written: markers by base, nothing checked. -/
abbrev Draft := Table String (List String)

/-! ### Entries -/

/-- Reads the name of a base. -/
def parseBase (raw : String) : Except ConfigurationError TypeName :=
  if (TypeName.dropSeparator (Text.trim raw.toList)).isEmpty then .error .emptyBase
  else match TypeName.parse raw with
    | .ok base => .ok base
    | .error error => .error (.invalidBase error)

/-- Reads the names of the markers of a base. -/
def parseMarkers (base : TypeName) : List String → Except ConfigurationError (List TypeName)
  | [] => .ok []
  | raw :: rest =>
    match TypeName.parse raw with
    | .error error => .error (.invalidMarker base error)
    | .ok marker => do
      let markers ← parseMarkers base rest
      .ok (marker :: markers)

/-- Adds one written entry and tells of the markers that were dropped.  An error comes without events,
also when a marker was dropped before the one that is misspelt. -/
def addEntry (mapping : Mapping) (raw : String × List String) :
    Except ConfigurationError (Logged Mapping) := do
  let base ← parseBase raw.1
  if known : base ∈ mapping.bases then .error (.duplicateBase base)
  else do
    let markers ← parseMarkers base raw.2
    .ok ⟨mapping.push base markers known,
      (repeatsBy id [] markers).map (Event.repeatedMarker base)⟩

/-- Adds written entries one by one.  An error comes without the events of the entries before it. -/
def addEntries : Mapping → List (String × List String) →
    Except ConfigurationError (Logged Mapping)
  | mapping, [] => .ok ⟨mapping, []⟩
  | mapping, raw :: rest => do
    let first ← mapping.addEntry raw
    let others ← addEntries first.value rest
    .ok ⟨others.value, first.events ++ others.events⟩

/-- Builds a mapping from its draft. -/
def ofDraft (draft : Draft) : Except ConfigurationError (Logged Mapping) :=
  addEntries empty draft.pairs

/-! ### Values and documents -/

/-- The texts in an array of markers. -/
def draftMarkers (base : String) : List Json → Except ConfigurationError (List String)
  | [] => .ok []
  | .str name :: rest => do
    let names ← draftMarkers base rest
    .ok (name :: names)
  | other :: _ => .error (.wrongShape (.notMarker base other))

/-- The texts in the members of a mapping. -/
def draftEntries : List (String × Json) → Except ConfigurationError (List (String × List String))
  | [] => .ok []
  | (base, .arr items) :: rest => do
    let names ← draftMarkers base items
    let entries ← draftEntries rest
    .ok ((base, names) :: entries)
  | (base, other) :: _ => .error (.wrongShape (.notMarkers base other))

/-- The draft in a JSON value. -/
def draftOfJson : Json → Except ConfigurationError Draft
  | .obj members => do
    let entries ← draftEntries members
    .ok (Table.ofPairs entries)
  | other => .error (.wrongShape (.notBases other))

/-- Builds a mapping from a JSON value. -/
def ofJson (value : Json) : Except ConfigurationError (Logged Mapping) := do
  let draft ← draftOfJson value
  ofDraft draft

/-- Loads a mapping from a text that came from `origin`. -/
def load (text origin : String) : Except ConfigurationError (Logged Mapping) := do
  let document ← readDocument .mapping text origin
  ofJson document

end Mapping

end Mixin
