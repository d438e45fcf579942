/-
**What the rule adds.**

The outcome of the rule is settled by one list, the markers that it adds to a declaration
(`Rule.added`): without any the declaration stays, otherwise they are appended.  A resolver without
an answer, one with an empty answer, and one whose answer matches nothing all come down to the empty
list.

* `apply_value`, `pass_eq_append` — the outcome, and the declaration afterwards, by the list.
* `mem_added_iff` — the list holds the markers of the matching entries that are not in use.
* `added_subset` — a class below more ancestors gets no fewer markers.
* **`mem_uses_pass_iff`** — what is in use afterwards.
-/

import Mixin.Rule

namespace Mixin

namespace Rule

/-- The markers that the rule adds to a declaration. -/
def added (rule : Rule) (d : Declaration) : List TypeName :=
  (additions rule.mapping (rule.resolver.ancestry d) d).map Prod.snd

/-- The declaration after one pass of the rule. -/
def pass (rule : Rule) (d : Declaration) : Declaration :=
  (rule.apply d).value.result d

/-! ### The outcome -/

section Outcome

/-- A class without ancestors lacks nothing. -/
theorem additions_nil (mapping : Mapping) (d : Declaration) : additions mapping [] d = [] := by
  have noEntry : (mapping.entries.filter fun entry => decide (entry.1 ∈ ([] : List TypeName))) = [] :=
    List.filter_eq_nil_iff.mpr fun entry _ matching => by simp at matching
  unfold additions candidates
  rw [noEntry]
  rfl

theorem extend_of_nothing {mapping : Mapping} {chain : List TypeName} {d : Declaration}
    (nothing : additions mapping chain d = []) :
    extend mapping chain d = ⟨.unchanged, [.nothingToAdd d.label]⟩ := by
  unfold extend
  rw [nothing]
  rfl

theorem extend_of_something {mapping : Mapping} {chain : List TypeName} {d : Declaration}
    (something : additions mapping chain d ≠ []) :
    extend mapping chain d =
      ⟨.mutated (d.append ((additions mapping chain d).map Prod.snd)),
        ((additions mapping chain d).map fun addition =>
          Event.appending d.label addition.1 addition.2) ++
            [.mutated d.label (additions mapping chain d).length]⟩ := by
  unfold extend
  exact if_neg fun empty => something (List.isEmpty_iff.mp empty)

/-- Extending a class depends on its additions only. -/
theorem extend_value (mapping : Mapping) (chain : List TypeName) (d : Declaration) :
    (extend mapping chain d).value =
      if additions mapping chain d = [] then .unchanged
      else .mutated (d.append ((additions mapping chain d).map Prod.snd)) := by
  by_cases nothing : additions mapping chain d = []
  · rw [if_pos nothing, extend_of_nothing nothing]
  · rw [if_neg nothing, extend_of_something nothing]

/-- No answer and an empty one are like any other answer that matches no entry. -/
theorem applyTo_value (mapping : Mapping) (answer : Option (List TypeName)) (d : Declaration) :
    (applyTo mapping answer d).value = (extend mapping (answer.getD []) d).value := by
  have nothing : (extend mapping [] d).value = .unchanged := by
    rw [extend_value, if_pos (additions_nil mapping d)]
  cases answer with
  | none => exact nothing.symm
  | some chain =>
    cases chain with
    | nil => exact nothing.symm
    | cons first rest => rfl

/-- **The outcome of the rule**: nothing to add, or the declaration with the additions. -/
theorem apply_value (rule : Rule) (d : Declaration) :
    (rule.apply d).value =
      if rule.added d = [] then .unchanged else .mutated (d.append (rule.added d)) := by
  have outcome : (rule.apply d).value =
      (extend rule.mapping (rule.resolver.ancestry d) d).value :=
    applyTo_value rule.mapping (rule.resolver d).value d
  rw [outcome, extend_value]
  unfold added
  simp only [List.map_eq_nil_iff]

theorem apply_eq_unchanged_iff {rule : Rule} {d : Declaration} :
    (rule.apply d).value = .unchanged ↔ rule.added d = [] := by
  rw [apply_value]
  split
  · rename_i none
    exact ⟨fun _ => none, fun _ => rfl⟩
  · rename_i some
    refine ⟨fun same => ?_, fun none => absurd none some⟩
    cases same

theorem apply_eq_mutated_iff {rule : Rule} {d after : Declaration} :
    (rule.apply d).value = .mutated after ↔ rule.added d ≠ [] ∧ after = d.append (rule.added d) := by
  rw [apply_value]
  split
  · rename_i none
    refine ⟨fun same => ?_, fun some => absurd none some.1⟩
    cases same
  · rename_i some
    refine ⟨fun same => ⟨some, (Outcome.mutated.inj same).symm⟩, fun both => ?_⟩
    rw [both.2]

/-- In either case the declaration afterwards is the old one with the additions. -/
theorem pass_eq_append (rule : Rule) (d : Declaration) :
    rule.pass d = d.append (rule.added d) := by
  unfold pass
  rw [apply_value]
  split
  · rename_i none
    rw [none]
    exact d.append_nil.symm
  · rfl

end Outcome

/-! ### Membership -/

section Membership

variable {rule : Rule} {d : Declaration} {marker : TypeName}

/-- The candidates are the markers of the matching entries. -/
theorem mem_candidates_iff {mapping : Mapping} {chain : List TypeName} :
    marker ∈ (candidates mapping chain).map Prod.snd ↔
      ∃ entry ∈ mapping.entries, entry.1 ∈ chain ∧ marker ∈ entry.2 := by
  unfold candidates
  constructor
  · intro listed
    obtain ⟨candidate, member, rfl⟩ := List.mem_map.mp listed
    obtain ⟨entry, kept, fromEntry⟩ := List.mem_flatMap.mp member
    obtain ⟨entered, matching⟩ := List.mem_filter.mp kept
    obtain ⟨found, inEntry, rfl⟩ := List.mem_map.mp fromEntry
    exact ⟨entry, entered, of_decide_eq_true matching, inEntry⟩
  · rintro ⟨entry, entered, matching, inEntry⟩
    refine List.mem_map.mpr ⟨(entry.1, marker), List.mem_flatMap.mpr ⟨entry, ?_, ?_⟩, rfl⟩
    · exact List.mem_filter.mpr ⟨entered, decide_eq_true matching⟩
    · exact List.mem_map_of_mem inEntry

/-- A marker is added when a matching entry lists it and it is not in use. -/
theorem mem_added_iff :
    marker ∈ rule.added d ↔ marker ∉ d.uses ∧
      ∃ entry ∈ rule.mapping.entries, entry.1 ∈ rule.resolver.ancestry d ∧ marker ∈ entry.2 := by
  unfold added additions
  rw [mem_map_freshBy_iff, mem_candidates_iff]

/-- Below more ancestors a class gets every marker that it got before. -/
theorem added_subset {mapping : Mapping} {resolver larger : Resolver}
    (more : resolver.ancestry d ⊆ larger.ancestry d) :
    (Rule.mk mapping resolver).added d ⊆ (Rule.mk mapping larger).added d := by
  intro marker isAdded
  obtain ⟨unused, entry, entered, matching, listed⟩ := mem_added_iff.mp isAdded
  exact mem_added_iff.mpr ⟨unused, entry, entered, more matching, listed⟩

/-- **A marker is in use afterwards** when it was before or a matching entry lists it. -/
theorem mem_uses_pass_iff :
    marker ∈ (rule.pass d).uses ↔ marker ∈ d.uses ∨
      ∃ entry ∈ rule.mapping.entries, entry.1 ∈ rule.resolver.ancestry d ∧ marker ∈ entry.2 := by
  rw [pass_eq_append, Declaration.uses_append, List.mem_append, mem_added_iff]
  by_cases used : marker ∈ d.uses
  · simp only [used, true_or]
  · simp only [used, not_false_eq_true, true_and, false_or]

end Membership

end Rule

end Mixin
