/-
**The rule tells what it did.**

The events of the rule can be read as its work: one for each statement that it appended, in the same
order, with the marker and the base that the marker comes from, and a last one with the outcome.  A
marker that several matching bases list is credited to the first of them, since it is no longer new
when the rule comes to the others.

* `credited?` — the first matching entry that lists a marker.
* `credited?_of_mem_additions` — an addition carries the base that its marker is credited to.
* `Event.Says`, `Reports`, `Traces` — what an event says, and what events make a faithful trace.
* **`apply_traced`** — the events of the rule are such a trace, behind those of the resolver.
-/

import Mathlib.Data.List.Forall2
import Mixin.Proofs.Rule.Additions

namespace Mixin

/-- What an event of the rule says: its words, the class it is about, and what it tells besides. -/
structure Event.Says (event : Event) (words : String) (d : Declaration)
    (more : List (String × Json)) : Prop where
  level : event.level = .debug
  domain : event.domain = "rule"
  words : event.message = words
  details : event.details = ("class", .str d.label) :: more

namespace Rule

/-- The base that a marker is credited to: that of the first entry whose base is among the ancestors
and which lists the marker. -/
def credited? (mapping : Mapping) (chain : List TypeName) (marker : TypeName) : Option TypeName :=
  (mapping.entries.find? fun entry => decide (entry.1 ∈ chain ∧ marker ∈ entry.2)).map Prod.fst

/-- The event tells of the statement: the marker that it uses, and the base this is credited to. -/
def Reports (mapping : Mapping) (chain : List TypeName) (d : Declaration) (event : Event)
    (statement : Statement) : Prop :=
  ∃ base marker, statement = .use [marker] ∧ credited? mapping chain marker = some base ∧
    event.Says "appending capability use" d [("base", .str base.text), ("marker", .str marker.text)]

/-- **A faithful trace** of one application, given the answer of the resolver and the outcome. -/
inductive Traces (mapping : Mapping) (d : Declaration) :
    Option (List TypeName) → Outcome → List Event → Prop
  /-- Without ancestry the class is skipped. -/
  | skipped {answer : Option (List TypeName)} {event : Event} :
      answer = none ∨ answer = some [] → event.Says "ancestry unresolved; skipping" d [] →
      Traces mapping d answer .unchanged [event]
  /-- Nothing was appended. -/
  | unchanged {chain : List TypeName} {closing : Event} :
      chain ≠ [] → closing.Says "no capability to add" d [] →
      Traces mapping d (some chain) .unchanged [closing]
  /-- There is one event for each appended statement, and one with their number. -/
  | mutated {chain : List TypeName} {after : Declaration} {statements : List Statement}
      {told : List Event} {closing : Event} :
      chain ≠ [] → after.body = d.body ++ statements →
      List.Forall₂ (Reports mapping chain d) told statements →
      closing.Says "declaration mutated" d
        [("added", .nat (after.body.length - d.body.length))] →
      Traces mapping d (some chain) (.mutated after) (told ++ [closing])

/-! ### Where a marker comes from -/

section Credit

variable {mapping : Mapping} {chain : List TypeName} {d : Declaration}

/-- Among the markers of one base, a marker is found if it is listed. -/
theorem find?_tagged (base marker : TypeName) (markers : List TypeName) :
    (markers.map fun listed => (base, listed)).find? (fun pair => decide (pair.2 = marker)) =
      if marker ∈ markers then some (base, marker) else none := by
  induction markers with
  | nil => rfl
  | cons first rest ih =>
    by_cases here : first = marker
    · simp [here]
    · simp [here, ih, Ne.symm here]

/-- **The first candidate with a marker** comes from the base that the marker is credited to. -/
theorem find?_candidates (mapping : Mapping) (chain : List TypeName) (marker : TypeName) :
    (candidates mapping chain).find? (fun candidate => decide (candidate.2 = marker)) =
      (credited? mapping chain marker).map fun base => (base, marker) := by
  unfold candidates credited?
  induction mapping.entries with
  | nil => rfl
  | cons entry rest ih =>
    by_cases matching : entry.1 ∈ chain
    · rw [List.filter_cons_of_pos (by simpa using matching), List.flatMap_cons, List.find?_append,
        find?_tagged]
      by_cases listed : marker ∈ entry.2
      · rw [if_pos listed, List.find?_cons_of_pos (by simp [matching, listed])]
        rfl
      · rw [if_neg listed, List.find?_cons_of_neg (by simp [listed]), Option.none_or, ih]
    · rw [List.filter_cons_of_neg (by simpa using matching),
        List.find?_cons_of_neg (by simp [matching]), ih]

/-- **An addition carries the base that its marker is credited to.** -/
theorem credited?_of_mem_additions {addition : TypeName × TypeName}
    (isAdded : addition ∈ additions mapping chain d) :
    credited? mapping chain addition.2 = some addition.1 := by
  have first := find?_of_mem_freshBy isAdded
  rw [find?_candidates, Option.map_eq_some_iff] at first
  obtain ⟨base, credited, same⟩ := first
  rw [credited, ← same]

end Credit

/-! ### The events -/

section Events

variable {mapping : Mapping} {chain : List TypeName} {d : Declaration}

/-- Each event about an addition tells of the statement that was appended for it. -/
theorem reports_additions :
    List.Forall₂ (Reports mapping chain d)
      ((additions mapping chain d).map fun addition =>
        Event.appending d.label addition.1 addition.2)
      (((additions mapping chain d).map Prod.snd).map fun marker => Statement.use [marker]) := by
  rw [List.map_map, List.forall₂_map_left_iff, List.forall₂_map_right_iff, List.forall₂_same]
  intro addition isAdded
  exact ⟨addition.1, addition.2, rfl, credited?_of_mem_additions isAdded, rfl, rfl, rfl, rfl⟩

/-- Extending a class below some ancestors leaves a faithful trace. -/
theorem traces_extend (below : chain ≠ []) :
    Traces mapping d (some chain) (extend mapping chain d).value (extend mapping chain d).events := by
  by_cases nothing : additions mapping chain d = []
  · rw [extend_of_nothing nothing]
    exact .unchanged below ⟨rfl, rfl, rfl, rfl⟩
  · rw [extend_of_something nothing]
    refine .mutated below rfl reports_additions ⟨rfl, rfl, rfl, ?_⟩
    have grown : (d.append ((additions mapping chain d).map Prod.snd)).body.length - d.body.length =
        (additions mapping chain d).length := by
      simp [Declaration.append]
    rw [grown]
    rfl

end Events

/-- **The rule tells what it did.**  Behind the events of the resolver come those of the rule, and they
are a faithful trace: one event when there is no ancestry; otherwise one for each appended statement,
in order, with its marker and the first base that lists it, and one with the outcome. -/
theorem apply_traced (rule : Rule) (d : Declaration) :
    ∃ own, (rule.apply d).events = (rule.resolver d).events ++ own ∧
      Traces rule.mapping d (rule.resolver d).value (rule.apply d).value own := by
  refine ⟨(applyTo rule.mapping (rule.resolver d).value d).events, rfl, ?_⟩
  show Traces rule.mapping d _ (applyTo rule.mapping (rule.resolver d).value d).value _
  cases (rule.resolver d).value with
  | none => exact .skipped (.inl rfl) ⟨rfl, rfl, rfl, rfl⟩
  | some chain =>
    cases chain with
    | nil => exact .skipped (.inr rfl) ⟨rfl, rfl, rfl, rfl⟩
    | cons first rest => exact traces_extend (List.cons_ne_nil first rest)

end Rule

end Mixin
