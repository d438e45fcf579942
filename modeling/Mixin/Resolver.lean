/-
**Resolvers: who knows the ancestry of a declaration.**

A resolver answers with the names above a class, nearest first, or with nothing when it does not
know; only membership matters to those who ask.  A hierarchy is a resolver, and so is any function.
-/

import Mixin.Declaration.Basic
import Mixin.Hierarchy.Basic

namespace Mixin

/-- Answers with the ancestry of a declaration, if it is known. -/
abbrev Resolver := Declaration → Logged (Option (List TypeName))

namespace Resolver

/-- Gives every declaration the same ancestry. -/
def fixed (chain : List TypeName) : Resolver := fun _ => ⟨some chain, []⟩

/-- Knows nothing. -/
def unknown : Resolver := fun _ => ⟨none, []⟩

/-- Knows no more than the written parent. -/
def written : Resolver := fun d => ⟨d.parent.map fun parent => [parent], []⟩

/-- The names in the answer for a declaration; no answer has none. -/
def ancestry (resolver : Resolver) (d : Declaration) : List TypeName :=
  (resolver d).value.getD []

end Resolver

namespace Hierarchy

/-- The first parent of a named class: the table's if it knows the class, else the written one. -/
def firstParent (hierarchy : Hierarchy) (name : TypeName) (written : Option TypeName) :
    Option TypeName :=
  match hierarchy.parentOf name with
  | some parent => some parent
  | none => written

/-- Climbs from the first parent; an anonymous class and one without parent have no ancestry. -/
def resolve (hierarchy : Hierarchy) : Resolver := fun d =>
  match d.name with
  | none => ⟨none, []⟩
  | some name =>
    match hierarchy.firstParent name d.parent with
    | none => ⟨none, []⟩
    | some first =>
      let found := hierarchy.ancestors name first
      ⟨some found.value, found.events⟩

end Hierarchy

end Mixin
