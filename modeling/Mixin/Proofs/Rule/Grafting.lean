/-
**Grafting follows the graph of the classes.**

Which markers a class uses after the rule has been applied with a hierarchy can be said without
climbing: those it used before, and those of every configured base that its graph reaches, itself
apart.  Cycles of the table change nothing in this, since what a climb passes is all that can be
reached (`Hierarchy.mem_ancestry_iff`).
-/

import Mixin.Proofs.Hierarchy.Reachability
import Mixin.Proofs.Rule.Additions

namespace Mixin

namespace Rule

/-- Without ancestry the rule leaves a declaration alone. -/
theorem apply_of_ancestry_nil {rule : Rule} {d : Declaration}
    (none : rule.resolver.ancestry d = []) : (rule.apply d).value = .unchanged := by
  rw [apply_eq_unchanged_iff, List.eq_nil_iff_forall_not_mem]
  intro marker isAdded
  obtain ⟨_, entry, _, matching, _⟩ := mem_added_iff.mp isAdded
  rw [none] at matching
  cases matching

/-- **Grafting is reachability.**  A named class uses a marker afterwards exactly when it did before
or a base other than the class lists it and is reached from the class; an anonymous class is left
alone. -/
theorem grafted_iff_reachable (mapping : Mapping) (hierarchy : Hierarchy) (d : Declaration) :
    (∀ name, d.name = some name → ∀ marker,
      marker ∈ (((Rule.mk mapping hierarchy.resolve).apply d).value.result d).uses ↔
        marker ∈ d.uses ∨ ∃ base markers, (base, markers) ∈ mapping.entries ∧ marker ∈ markers ∧
          base ≠ name ∧ Relation.TransGen (hierarchy.Edge d) name base) ∧
    (d.name = none → ((Rule.mk mapping hierarchy.resolve).apply d).value = .unchanged) := by
  constructor
  · intro name named marker
    rw [show ((Rule.mk mapping hierarchy.resolve).apply d).value.result d =
      (Rule.mk mapping hierarchy.resolve).pass d from rfl, mem_uses_pass_iff]
    refine or_congr_right ⟨?_, ?_⟩
    · rintro ⟨⟨base, markers⟩, entered, inAncestry, listed⟩
      obtain ⟨different, reached⟩ := (Hierarchy.mem_ancestry_iff named).mp inAncestry
      exact ⟨base, markers, entered, listed, different, reached⟩
    · rintro ⟨base, markers, entered, listed, different, reached⟩
      exact ⟨(base, markers), entered, (Hierarchy.mem_ancestry_iff named).mpr ⟨different, reached⟩,
        listed⟩
  · intro anonymous
    exact apply_of_ancestry_nil (Hierarchy.ancestry_anonymous anonymous)

namespace Triangle

/-- The three classes of a hierarchy that goes in a circle. -/
def first : TypeName := ⟨"A", by decide⟩
def second : TypeName := ⟨"B", by decide⟩
def third : TypeName := ⟨"C", by decide⟩

/-- A marker for the last class of the circle, and one for the first. -/
def far : TypeName := ⟨"Far", by decide⟩
def own : TypeName := ⟨"Own", by decide⟩

/-- Each class is below the next and the last is below the first. -/
def circle : Hierarchy :=
  ((Hierarchy.empty.insert first second).insert second third).insert third first

/-- The last class and the first are configured. -/
def configured : Mapping :=
  (Mapping.empty.push third [far] (by decide)).push first [own] (by decide)

end Triangle

open Triangle in
/-- In a circle a class gets the markers of the others and not its own. -/
theorem grafted_around_triangle :
    far ∈ (((Rule.mk configured circle.resolve).apply (.named first)).value.result
        (.named first)).uses ∧
      own ∉ (((Rule.mk configured circle.resolve).apply (.named first)).value.result
        (.named first)).uses ∧
      ((Rule.mk configured circle.resolve).apply .anonymous).value = .unchanged := by
  have afterwards := (grafted_iff_reachable configured circle (.named first)).1 first rfl
  refine ⟨(afterwards far).mpr (.inr ⟨third, [far], by decide, by decide, by decide, ?_⟩),
    fun used => ?_, (grafted_iff_reachable configured circle .anonymous).2 rfl⟩
  · have toSecond : circle.Edge (.named first) first second := .entry (by decide)
    have toThird : circle.Edge (.named first) second third := .entry (by decide)
    exact .tail (.single toSecond) toThird
  · rcases (afterwards own).mp used with before | ⟨base, markers, entered, listed, different, _⟩
    · cases before
    · -- Only the entry of the class itself lists this marker.
      have entries : configured.entries = [(third, [far]), (first, [own])] := by decide
      rw [entries] at entered
      rcases List.mem_cons.mp entered with atThird | atFirst
      · cases atThird
        exact absurd listed (by decide)
      · cases List.mem_singleton.mp atFirst
        exact different rfl

end Rule

end Mixin
