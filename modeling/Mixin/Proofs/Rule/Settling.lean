/-
**One pass settles a declaration.**

A pass adds every marker that a declaration lacks and touches neither its name nor its written
parent.  So a resolver that looks at nothing else answers the next pass as it did this one, and the
next pass finds every marker in use.

* `Resolver.ByHeading` — the answer depends on the name and the written parent alone.
* `added_pass` — after a pass there is nothing to add.
* **`passes_settle`** — of any number of passes only the first can change the declaration.
-/

import Mathlib.Logic.Function.Iterate
import Mixin.Proofs.Rule.Additions

namespace Mixin

/-- The answer depends on the name and the written parent of a declaration alone. -/
def Resolver.ByHeading (resolver : Resolver) : Prop :=
  ∀ left right : Declaration, left.name = right.name → left.parent = right.parent →
    (resolver left).value = (resolver right).value

/-- A hierarchy looks at the name and the written parent only. -/
theorem Hierarchy.resolve_byHeading (hierarchy : Hierarchy) : hierarchy.resolve.ByHeading := by
  intro left right sameName sameParent
  unfold resolve
  rw [sameName, sameParent]

namespace Rule

section Passes

variable {rule : Rule}

/-- A pass keeps the ancestry that the resolver sees. -/
theorem ancestry_pass (byHeading : rule.resolver.ByHeading) (d : Declaration) :
    rule.resolver.ancestry (rule.pass d) = rule.resolver.ancestry d := by
  have same : (rule.resolver (rule.pass d)).value = (rule.resolver d).value := by
    rw [pass_eq_append]
    exact byHeading _ _ rfl rfl
  unfold Resolver.ancestry
  rw [same]

/-- **After a pass there is nothing to add.** -/
theorem added_pass (byHeading : rule.resolver.ByHeading) (d : Declaration) :
    rule.added (rule.pass d) = [] := by
  rw [List.eq_nil_iff_forall_not_mem]
  intro marker isAdded
  obtain ⟨unused, entry, entered, matching, listed⟩ := mem_added_iff.mp isAdded
  rw [ancestry_pass byHeading] at matching
  exact unused (mem_uses_pass_iff.mpr (.inr ⟨entry, entered, matching, listed⟩))

/-- A second pass changes nothing. -/
theorem pass_pass (byHeading : rule.resolver.ByHeading) (d : Declaration) :
    rule.pass (rule.pass d) = rule.pass d := by
  rw [pass_eq_append rule (rule.pass d), added_pass byHeading, Declaration.append_nil]

/-- However many passes follow the first, the declaration is that of the first. -/
theorem iterate_pass (byHeading : rule.resolver.ByHeading) (d : Declaration) (later : Nat) :
    rule.pass^[later + 1] d = rule.pass d := by
  induction later with
  | zero => rfl
  | succ later ih => rw [Function.iterate_succ_apply', ih, pass_pass byHeading]

end Passes

/-- **One pass settles a declaration.**  A hierarchy answers by the heading of a declaration; and with
any resolver that does, what the rule has changed it leaves alone the next time, so that after one
pass or more the declaration is that of the first pass and the next outcome is `unchanged`. -/
theorem passes_settle :
    (∀ hierarchy : Hierarchy, hierarchy.resolve.ByHeading) ∧
    ∀ rule : Rule, rule.resolver.ByHeading → ∀ d : Declaration,
      (∀ after, (rule.apply d).value = .mutated after → (rule.apply after).value = .unchanged) ∧
      ∀ passes, 1 ≤ passes →
        rule.pass^[passes] d = (rule.apply d).value.result d ∧
        (rule.apply (rule.pass^[passes] d)).value = .unchanged := by
  refine ⟨Hierarchy.resolve_byHeading, fun rule byHeading d => ⟨?_, ?_⟩⟩
  · intro after mutated
    have same : rule.pass d = after := by
      unfold pass
      rw [mutated]
      rfl
    rw [apply_eq_unchanged_iff, ← same]
    exact added_pass byHeading d
  · intro passes some
    obtain ⟨later, rfl⟩ := Nat.exists_eq_add_of_le' some
    rw [iterate_pass byHeading, apply_eq_unchanged_iff]
    exact ⟨rfl, added_pass byHeading d⟩

namespace Overlap

/-- A class, and the two bases above it. -/
def child : TypeName := ⟨"App\\Child", by decide⟩
def lower : TypeName := ⟨"App\\Lower", by decide⟩
def upper : TypeName := ⟨"App\\Upper", by decide⟩

/-- A marker of both bases, and one of the upper base that the class uses already. -/
def shared : TypeName := ⟨"Shared", by decide⟩
def old : TypeName := ⟨"Old", by decide⟩

/-- The table knows the lower base only; the class has its parent in writing. -/
def rule : Rule where
  mapping := (Mapping.empty.push lower [shared] (by decide)).push upper [old, shared] (by decide)
  resolver := (Hierarchy.empty.insert lower upper).resolve

/-- The class, with a group of markers in use. -/
def before : Declaration := ((Declaration.named child).extending lower).push (.use [old, child])

end Overlap

open Overlap in
/-- With overlapping lists the first pass adds what is lacking once, and a hundred later passes add
nothing. -/
theorem overlap_settles :
    (rule.apply before).value = .mutated (before.push (.use [shared])) ∧
      (rule.apply (before.push (.use [shared]))).value = .unchanged ∧
      rule.pass^[100] before = before.push (.use [shared]) := by
  have settled := passes_settle.2 rule (passes_settle.1 _) before
  have mutated : (rule.apply before).value = .mutated (before.push (.use [shared])) := by
    decide +kernel
  refine ⟨mutated, settled.1 _ mutated, ?_⟩
  rw [(settled.2 100 (by decide)).1, mutated]
  rfl

end Rule

end Mixin
