/-
**Events: what the library has to tell besides its results.**

An `Event` is a value; nothing is written while the library works.  A computation that has something
to tell gives its result together with the events, in the order in which they happened (`Logged`).
-/

import Mixin.Json.Basic
import Mixin.TypeName

namespace Mixin

/-- Something worth telling. -/
inductive Event where
  /-- A marker was listed again under its base and dropped. -/
  | repeatedMarker (base marker : TypeName)
  /-- The ancestry of a class came back to a name it had passed. -/
  | cycle (start repeated : TypeName)
  /-- The ancestry of a class is not known. -/
  | unresolved (label : String)
  /-- A marker of a base is added to a class. -/
  | appending (label : String) (base marker : TypeName)
  /-- A class has every marker it should have. -/
  | nothingToAdd (label : String)
  /-- A class has new markers. -/
  | mutated (label : String) (added : Nat)
deriving DecidableEq

/-- How much attention an event wants. -/
inductive Level where
  | debug
  | warn
deriving DecidableEq, Repr

namespace Level

/-- The name of a level. -/
def name : Level → String
  | debug => "DEBUG"
  | warn => "WARN"

end Level

namespace Event

/-- Only a cycle is a reason to warn. -/
def level : Event → Level
  | cycle _ _ => .warn
  | _ => .debug

/-- The event in words. -/
def message : Event → String
  | repeatedMarker _ _ => "collapsing repeated capability marker"
  | cycle _ _ => "class hierarchy contains a cycle; truncating ancestry"
  | unresolved _ => "ancestry unresolved; skipping"
  | appending _ _ _ => "appending capability use"
  | nothingToAdd _ => "no capability to add"
  | mutated _ _ => "declaration mutated"

/-- The part of the library that an event comes from. -/
def domain : Event → String
  | repeatedMarker _ _ => "mapping"
  | cycle _ _ => "ancestry"
  | _ => "rule"

/-- What an event is about, by name. -/
def details : Event → List (String × Json)
  | repeatedMarker base marker => [("base", .str base.text), ("marker", .str marker.text)]
  | cycle start repeated => [("class", .str start.text), ("repeated", .str repeated.text)]
  | unresolved label => [("class", .str label)]
  | appending label base marker =>
    [("class", .str label), ("base", .str base.text), ("marker", .str marker.text)]
  | nothingToAdd label => [("class", .str label)]
  | mutated label added => [("class", .str label), ("added", .nat added)]

/-- An event as JSON: its level, its words, and what it is about. -/
def toJson (event : Event) : Json :=
  .obj [("level", .str event.level.name), ("message", .str event.message),
    ("fields", .obj (("domain", .str event.domain) :: event.details))]

end Event

/-- A result with the events of the computation that gave it. -/
structure Logged (α : Type) where
  value : α
  events : List Event

end Mixin
