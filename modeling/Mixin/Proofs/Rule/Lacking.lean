/-
**What a declaration lacks.**

The rule goes through the entries of a mapping one by one and remembers which markers it has met.  The
markers it adds can be named without that memory: take the lists of the matching entries one after the
other, leave out what some statement of the class uses, and keep what remains where it first occurs
(`Rule.lacking`).

* `map_additions` — the markers of the additions are what the class lacks, in the same order.
* **`apply_exact`** — the outcome of the rule, with every part of the new declaration.
-/

import Mixin.Proofs.Rule.Additions

namespace Mixin

namespace Declaration

/-- A marker is in use when some statement lists it. -/
theorem mem_uses_iff {d : Declaration} {marker : TypeName} :
    marker ∈ d.uses ↔ ∃ statement ∈ d.body, marker ∈ statement.markers :=
  List.mem_flatMap

end Declaration

namespace Rule

/-- What a class with the given ancestors lacks: the markers of the entries whose base is among the
ancestors, in order of the mapping, without those that a statement of the class uses, each where it
first occurs. -/
def lacking (mapping : Mapping) (chain : List TypeName) (d : Declaration) : List TypeName :=
  let listed := (mapping.entries.filter fun entry => decide (entry.1 ∈ chain)).flatMap Prod.snd
  (listed.filter fun marker => !decide (∃ statement ∈ d.body, marker ∈ statement.markers)).eraseDups

section Lacking

variable (mapping : Mapping) (chain : List TypeName) (d : Declaration)

/-- Without their bases, the candidates are the lists of the matching entries one after the other. -/
theorem map_candidates :
    (candidates mapping chain).map Prod.snd =
      (mapping.entries.filter fun entry => decide (entry.1 ∈ chain)).flatMap Prod.snd := by
  unfold candidates
  rw [List.map_flatMap]
  refine congrArg (fun listing => List.flatMap listing _) ?_
  funext entry
  rw [List.map_map]
  exact List.map_id _

/-- **The markers of the additions are what the class lacks.** -/
theorem map_additions : (additions mapping chain d).map Prod.snd = lacking mapping chain d := by
  have unused : ∀ marker : TypeName, decide (marker ∉ d.uses) =
      !decide (∃ statement ∈ d.body, marker ∈ statement.markers) := by
    intro marker
    rw [decide_not, decide_eq_decide.mpr Declaration.mem_uses_iff]
  unfold additions lacking
  rw [map_freshBy, map_candidates]
  simp only [unused]

/-- Nothing is lacking below nothing. -/
theorem lacking_nil : lacking mapping [] d = [] := by
  rw [← map_additions, additions_nil, List.map_nil]

end Lacking

/-- **The outcome of the rule.**  Without an answer of the resolver, with an empty one, and when
nothing is lacking, the declaration stays; otherwise it keeps its name, its written parent and its
statements, and behind these comes one statement for each marker that it lacks, in order. -/
theorem apply_exact (rule : Rule) (d : Declaration) :
    (rule.apply d).value =
      match (rule.resolver d).value with
      | none => .unchanged
      | some chain =>
        if chain = [] ∨ lacking rule.mapping chain d = [] then .unchanged
        else .mutated
          { name := d.name
            parent := d.parent
            body := d.body ++ (lacking rule.mapping chain d).map fun marker => .use [marker] } := by
  have added : rule.added d = lacking rule.mapping (rule.resolver.ancestry d) d :=
    map_additions rule.mapping _ d
  rw [apply_value, added]
  unfold Resolver.ancestry
  cases (rule.resolver d).value with
  | none => exact if_pos (lacking_nil rule.mapping d)
  | some chain =>
    cases chain with
    | nil => simp only [Option.getD_some, lacking_nil, true_or, if_true]
    | cons first rest =>
      simp only [Option.getD_some, reduceCtorEq, false_or]
      rfl

end Rule

end Mixin
