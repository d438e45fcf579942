/-
**The rule: classes below a configured base use its markers.**

For every entry of the mapping whose base is among the ancestors of a class, in order, each marker of
the entry that the class does not use yet is added, once, in a statement of its own at the end of the
body.  Nothing else of the class changes, and a class with nothing to add stays as it is.
-/

import Mixin.Mapping.Basic
import Mixin.Resolver

namespace Mixin

/-- What became of a declaration. -/
inductive Outcome where
  | unchanged
  /-- The declaration with its new statements. -/
  | mutated (declaration : Declaration)
deriving DecidableEq

namespace Outcome

/-- The new declaration, if there is one. -/
def declaration? : Outcome → Option Declaration
  | unchanged => none
  | mutated declaration => some declaration

/-- Whether there is a new declaration. -/
def isMutated : Outcome → Bool
  | unchanged => false
  | mutated _ => true

/-- The declaration afterwards, given the one before. -/
def result (before : Declaration) : Outcome → Declaration
  | unchanged => before
  | mutated after => after

end Outcome

/-- A mapping, and the resolver that says which of its bases a class is below. -/
structure Rule where
  mapping : Mapping
  resolver : Resolver

namespace Rule

/-- The name under which the rule is known. -/
def name : String := "add_trait_to_class_extending_type"

/-- What the rule does, in one sentence. -/
def description : String := "Adds the given set of traits to the classes extending the given type"

/-- The markers that a class with the given ancestors should use, each with the base it comes from,
in order of the mapping. -/
def candidates (mapping : Mapping) (chain : List TypeName) : List (TypeName × TypeName) :=
  (mapping.entries.filter fun entry => decide (entry.1 ∈ chain)).flatMap fun entry =>
    entry.2.map fun marker => (entry.1, marker)

/-- The candidates whose marker is neither in use nor an earlier candidate's. -/
def additions (mapping : Mapping) (chain : List TypeName) (d : Declaration) :
    List (TypeName × TypeName) :=
  freshBy Prod.snd d.uses (candidates mapping chain)

/-- Adds what a class with the given ancestors lacks. -/
def extend (mapping : Mapping) (chain : List TypeName) (d : Declaration) : Logged Outcome :=
  let added := additions mapping chain d
  let told := added.map fun addition => Event.appending d.label addition.1 addition.2
  if added.isEmpty then ⟨.unchanged, told ++ [.nothingToAdd d.label]⟩
  else ⟨.mutated (d.append (added.map Prod.snd)), told ++ [.mutated d.label added.length]⟩

/-- Applies the rule, given the answer of the resolver; no answer and an empty one are alike. -/
def applyTo (mapping : Mapping) (answer : Option (List TypeName)) (d : Declaration) :
    Logged Outcome :=
  match answer with
  | none => ⟨.unchanged, [.unresolved d.label]⟩
  | some chain =>
    if chain.isEmpty then ⟨.unchanged, [.unresolved d.label]⟩ else extend mapping chain d

/-- Applies the rule to a declaration; the resolver's events come first. -/
def apply (rule : Rule) (d : Declaration) : Logged Outcome :=
  let answer := rule.resolver d
  let outcome := applyTo rule.mapping answer.value d
  ⟨outcome.value, answer.events ++ outcome.events⟩

/-- The declaration to put in the place of the old one, if the old one should not stay. -/
def replacement? (rule : Rule) (d : Declaration) : Option Declaration :=
  (rule.apply d).value.declaration?

end Rule

end Mixin
