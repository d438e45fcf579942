/-
**Capability mappings.**

A mapping lists, for each base type, the capability markers that classes below it should use.  Base
types are distinct, the markers of one base are distinct, and both keep the order in which they were
configured.
-/

import Mixin.Distinct
import Mixin.Table
import Mixin.TypeName

namespace Mixin

/-- The markers of each base type, in order of configuration. -/
structure Mapping where
  /-- The entries. -/
  table : Table TypeName (List TypeName)
  /-- No base lists a marker twice. -/
  distinct : ∀ entry ∈ table.pairs, entry.2.Nodup

namespace Mapping

/-- The mapping without entries. -/
def empty : Mapping := ⟨Table.empty, fun _ impossible => nomatch impossible⟩

instance : Inhabited Mapping := ⟨empty⟩

/-- The entries: a base and its markers each. -/
def entries (mapping : Mapping) : List (TypeName × List TypeName) := mapping.table.pairs

/-- The base types. -/
def bases (mapping : Mapping) : List TypeName := mapping.table.keys

/-- The number of entries. -/
def size (mapping : Mapping) : Nat := mapping.table.size

/-- Whether there are no entries. -/
def isEmpty (mapping : Mapping) : Bool := mapping.table.isEmpty

/-- The markers of a base, if it is configured. -/
def markers? (mapping : Mapping) (base : TypeName) : Option (List TypeName) :=
  mapping.table.get? base

/-- Whether two mappings give the same bases the same lists of markers. -/
def same (left right : Mapping) : Bool := left.table.same right.table

/-- Adds an entry for a new base; a marker listed again is dropped. -/
def push (mapping : Mapping) (base : TypeName) (markers : List TypeName)
    (new : base ∉ mapping.bases) : Mapping where
  table := mapping.table.push base (freshBy id [] markers) new
  distinct := by
    intro entry member
    rcases List.mem_append.mp member with old | added
    · exact mapping.distinct entry old
    · obtain rfl := List.mem_singleton.mp added
      simpa using nodup_map_freshBy id [] markers

end Mapping

end Mixin
