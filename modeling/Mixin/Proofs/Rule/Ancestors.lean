/-
**Only the set of ancestors matters.**

A resolver answers with a list, nearest ancestor first, but the rule asks no more of it than which
names it holds: the entries that match are picked in the order of the mapping, and the only other
question is whether there is a name at all.  So the order of the answer and its repetitions leave no
trace, neither in the outcome nor in the events.

More ancestors can put the additions in another order, since an entry that matches now may come first
with a marker that was credited to a later one.  They never take a marker away.

* `applyTo_eq` — no answer is an answer without names.
* `extend_congr`, `applyTo_congr` — answers with the same names are answered alike.
* **`apply_by_ancestors`** — equal sets give equal outcomes and events, larger ones no fewer markers.
-/

import Mixin.Proofs.Rule.Reordering

namespace Mixin

namespace Rule

section Sets

variable {mapping : Mapping} {d : Declaration}

/-- Chains with the same names match the same entries. -/
theorem candidates_congr {chain other : List TypeName} (same : ∀ name, name ∈ chain ↔ name ∈ other) :
    candidates mapping chain = candidates mapping other := by
  have matching : (mapping.entries.filter fun entry => decide (entry.1 ∈ chain)) =
      mapping.entries.filter fun entry => decide (entry.1 ∈ other) :=
    List.filter_congr fun entry _ => decide_eq_decide.mpr (same entry.1)
  unfold candidates
  rw [matching]

theorem extend_congr {chain other : List TypeName} (same : ∀ name, name ∈ chain ↔ name ∈ other) :
    extend mapping chain d = extend mapping other d := by
  have added : additions mapping chain d = additions mapping other d := by
    unfold additions
    rw [candidates_congr same]
  unfold extend
  rw [added]

/-- **No answer is an answer without names**, and without names the class is skipped. -/
theorem applyTo_eq (mapping : Mapping) (answer : Option (List TypeName)) (d : Declaration) :
    applyTo mapping answer d =
      if answer.getD [] = [] then ⟨.unchanged, [.unresolved d.label]⟩
      else extend mapping (answer.getD []) d := by
  cases answer with
  | none => rfl
  | some chain =>
    cases chain with
    | nil => rfl
    | cons first rest => exact (if_neg (List.cons_ne_nil first rest)).symm

/-- **Answers with the same names are answered alike**, events included. -/
theorem applyTo_congr {answer other : Option (List TypeName)}
    (same : ∀ name, name ∈ answer.getD [] ↔ name ∈ other.getD []) :
    applyTo mapping answer d = applyTo mapping other d := by
  have empty : answer.getD [] = [] ↔ other.getD [] = [] := by
    simp only [List.eq_nil_iff_forall_not_mem, same]
  rw [applyTo_eq, applyTo_eq, extend_congr same]
  simp only [empty]

/-- Below more ancestors a class uses every marker that it would use below fewer. -/
theorem uses_pass_subset {resolver larger : Resolver}
    (more : resolver.ancestry d ⊆ larger.ancestry d) :
    ((Rule.mk mapping resolver).pass d).uses ⊆ ((Rule.mk mapping larger).pass d).uses := by
  rw [pass_eq_append, pass_eq_append, Declaration.uses_append, Declaration.uses_append]
  exact List.append_subset.mpr ⟨List.subset_append_left _ _,
    List.subset_append_of_subset_right _ (added_subset more)⟩

end Sets

/-- **Only the set of ancestors matters, and more of them never take a marker away.**  Let two resolvers
answer for a declaration, no answer being one without names.  If the answers hold the same names, in
whatever order and however often, the outcome is the same, and so are the events of the rule behind
those of the resolver.  If the second answer holds every name of the first, every marker that the
declaration uses after the first outcome it uses after the second. -/
theorem apply_by_ancestors (mapping : Mapping) (d : Declaration) (left right : Resolver) :
    let first := (Rule.mk mapping left).apply d
    let second := (Rule.mk mapping right).apply d
    ((∀ name, name ∈ left.ancestry d ↔ name ∈ right.ancestry d) →
      first.value = second.value ∧
      ∃ own, first.events = (left d).events ++ own ∧ second.events = (right d).events ++ own) ∧
    ((∀ name ∈ left.ancestry d, name ∈ right.ancestry d) →
      ∀ marker ∈ (first.value.result d).uses, marker ∈ (second.value.result d).uses) := by
  intro first second
  refine ⟨fun same => ?_, fun more => uses_pass_subset more⟩
  have alike : applyTo mapping (left d).value d = applyTo mapping (right d).value d :=
    applyTo_congr same
  refine ⟨?_, (applyTo mapping (left d).value d).events, rfl, ?_⟩
  · show (applyTo mapping (left d).value d).value = (applyTo mapping (right d).value d).value
    rw [alike]
  · rw [alike]
    rfl

open Crossed in
/-- An answer with its names in another order and one of them twice changes nothing.  With one ancestor
less both markers are still there, in the other order: the common one is then credited to the base that
lists it last. -/
theorem crossed_answers :
    let apply chain := (Rule.mk northFirst (.fixed chain)).apply .anonymous
    (apply [south, north, south]).value = (apply [north, south]).value ∧
      (apply [south]).value = .mutated (Declaration.anonymous.append [early, common]) ∧
      (apply [south, north]).value = .mutated (Declaration.anonymous.append [common, early]) ∧
      ∀ marker ∈ [early, common],
        marker ∈ ((apply [south, north]).value.result .anonymous).uses := by
  intro apply
  have alone : (apply [south]).value = .mutated (Declaration.anonymous.append [early, common]) := by
    decide +kernel
  refine ⟨?_, alone, by decide +kernel, ?_⟩
  · have fewer : [south, north, south] ⊆ [north, south] := by decide
    have more : [north, south] ⊆ [south, north, south] := by decide
    exact ((apply_by_ancestors northFirst .anonymous (.fixed [south, north, south])
      (.fixed [north, south])).1 fun name => ⟨@fewer name, @more name⟩).1
  · have below : [south] ⊆ [south, north] := by decide
    have kept := (apply_by_ancestors northFirst .anonymous (.fixed [south])
      (.fixed [south, north])).2 @below
    rw [show ((Rule.mk northFirst (.fixed [south])).apply .anonymous).value = _ from alone] at kept
    exact kept

end Rule

end Mixin
