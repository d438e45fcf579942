/-
**Rules in sequence are one rule.**

Two mappings without a common base can be written one after the other as a single mapping.  Applying
their rules in turn adds to a declaration what the rule of the single mapping adds at once, in the
same order: the second rule finds in the declaration, as markers in use, exactly what the single rule
remembers of its first half.

* `Mapping.append` — the entries of one mapping followed by those of another.
* `added_append` — what the single rule adds, in two halves.
* **`pass_append`** — one pass of the single rule is a pass of each rule.
-/

import Mixin.Proofs.Rule.Settling

namespace Mixin

namespace Mapping

/-- The entries of one mapping followed by those of another, which has none of its bases. -/
def append (first second : Mapping) (apart : ∀ base ∈ first.bases, base ∉ second.bases) :
    Mapping where
  table :=
    { pairs := first.entries ++ second.entries
      distinct := by
        rw [List.map_append, List.nodup_append]
        refine ⟨first.table.distinct, second.table.distinct, fun base inFirst other inSecond => ?_⟩
        exact fun same => apart base inFirst (same ▸ inSecond) }
  distinct := fun entry member => (List.mem_append.mp member).elim (first.distinct entry)
    (second.distinct entry)

theorem entries_append {first second : Mapping}
    (apart : ∀ base ∈ first.bases, base ∉ second.bases) :
    (first.append second apart).entries = first.entries ++ second.entries := rfl

theorem not_mem_bases_empty (base : TypeName) : base ∉ empty.bases := List.not_mem_nil

end Mapping

namespace Rule

section Halves

variable {first second : Mapping} (apart : ∀ base ∈ first.bases, base ∉ second.bases)

theorem candidates_append (chain : List TypeName) :
    candidates (first.append second apart) chain =
      candidates first chain ++ candidates second chain := by
  unfold candidates
  rw [Mapping.entries_append, List.filter_append, List.flatMap_append]

/-- **What the single rule adds** is what the first rule adds, followed by what the second rule adds
to the declaration that the first one leaves. -/
theorem added_append {resolver : Resolver} (byHeading : resolver.ByHeading) (d : Declaration) :
    (Rule.mk (first.append second apart) resolver).added d =
      (Rule.mk first resolver).added d ++
        (Rule.mk second resolver).added ((Rule.mk first resolver).pass d) := by
  have sameChain : resolver.ancestry ((Rule.mk first resolver).pass d) = resolver.ancestry d :=
    @ancestry_pass ⟨first, resolver⟩ byHeading d
  have uses : ((Rule.mk first resolver).pass d).uses =
      d.uses ++ (Rule.mk first resolver).added d := by
    rw [pass_eq_append, Declaration.uses_append]
  unfold added additions at uses ⊢
  dsimp only at uses ⊢
  rw [candidates_append, freshBy_append, List.map_append, sameChain, uses]

end Halves

/-- **Rules in sequence are one rule.**  With a resolver that answers by the heading, applying the
rules of two mappings without a common base one after the other gives the declaration that the rule
of both mappings together gives, statement by statement. -/
theorem pass_append (first second : Mapping)
    (apart : ∀ base ∈ first.bases, base ∉ second.bases) (resolver : Resolver)
    (byHeading : resolver.ByHeading) (d : Declaration) :
    let between := ((Rule.mk first resolver).apply d).value.result d
    ((Rule.mk second resolver).apply between).value.result between =
      ((Rule.mk (first.append second apart) resolver).apply d).value.result d := by
  show (Rule.mk second resolver).pass ((Rule.mk first resolver).pass d) =
    (Rule.mk (first.append second apart) resolver).pass d
  rw [pass_eq_append ⟨first.append second apart, resolver⟩, added_append apart byHeading,
    Declaration.append_append, ← pass_eq_append ⟨first, resolver⟩, ← pass_eq_append]

namespace Overlap

/-- A marker of the upper base alone. -/
def late : TypeName := ⟨"Late", by decide⟩

/-- Each base in a mapping of its own. -/
def lowerOnly : Mapping := Mapping.empty.push lower [shared] (Mapping.not_mem_bases_empty lower)
def upperOnly : Mapping :=
  Mapping.empty.push upper [old, shared, late] (Mapping.not_mem_bases_empty upper)

end Overlap

open Overlap in
/-- Of the three markers in the second mapping one is in use, one has just been added, and the third
is new. -/
theorem overlap_in_sequence :
    let first := Rule.mk lowerOnly rule.resolver
    let second := Rule.mk upperOnly rule.resolver
    second.pass (first.pass before) =
        (Rule.mk (lowerOnly.append upperOnly (by decide)) rule.resolver).pass before ∧
      second.pass (first.pass before) = (before.push (.use [shared])).push (.use [late]) := by
  refine ⟨pass_append lowerOnly upperOnly (by decide) rule.resolver
    (Hierarchy.resolve_byHeading _) before, ?_⟩
  decide +kernel

end Rule

end Mixin
