/-
**Editing a hierarchy.**

Recording the parent of one class touches the ancestry of the declarations above which that class
stands, and of no other.  If the class was not known before, the table only gains an edge, so nothing
that could be reached is lost, whether the new edge goes on from the end of a walk, closes a circle or
leads back to the declared class.

* `climb_insert` — a climb that does not pass the edited class takes the same steps in both tables.
* `edge_insert` — a class that is new to the table leaves the edges of the graph in place.
* **`resolve_after_insert`** — what an edit leaves as it was, and what it can only add to.
-/

import Mixin.Proofs.Hierarchy.Reachability
import Mixin.Proofs.Rule.Additions

namespace Mixin

namespace Hierarchy

variable {hierarchy : Hierarchy} {name parent : TypeName} {d : Declaration}

theorem parentOf_insert (hierarchy : Hierarchy) (name parent other : TypeName) :
    (hierarchy.insert name parent).parentOf other =
      if other = name then some parent else hierarchy.parentOf other :=
  hierarchy.parents.get?_insert name other parent

theorem mem_classes_insert {other : TypeName} :
    other ∈ (hierarchy.insert name parent).classes ↔ other = name ∨ other ∈ hierarchy.classes :=
  mem_keys_place

/-! ### Away from the edited class -/

section Local

/-- **A climb that does not pass the edited class** goes as it went. -/
theorem climb_insert {seen : List TypeName} {first : TypeName}
    (off : name ∉ (hierarchy.climb seen first).chain) :
    (hierarchy.insert name parent).climb seen first = hierarchy.climb seen first := by
  fun_induction climb hierarchy seen first with
  | case1 seen here old => rw [climb, dif_pos old]
  | case2 seen here new unknown =>
    have different : here ≠ name := fun same => off (same ▸ List.mem_cons_self)
    exact climb_of_unknown new (by rw [parentOf_insert, if_neg different, unknown])
  | case3 seen here new next found shorter above ih =>
    rw [List.mem_cons, not_or] at off
    have stillFound : (hierarchy.insert name parent).parentOf here = some next := by
      rw [parentOf_insert, if_neg fun same => off.1 same.symm, found]
    rw [climb_of_known new stillFound, ih off.2]

/-- The first parent of another class stays. -/
theorem firstParent_insert {own : TypeName} (other : own ≠ name) (written : Option TypeName) :
    (hierarchy.insert name parent).firstParent own written = hierarchy.firstParent own written := by
  unfold firstParent
  rw [parentOf_insert, if_neg other]

/-- **The answer for a declaration stays** when the edited class is neither the declared class nor
among its ancestors. -/
theorem resolve_insert (other : d.name ≠ some name) (off : name ∉ hierarchy.resolve.ancestry d) :
    (hierarchy.insert name parent).resolve d = hierarchy.resolve d := by
  unfold Resolver.ancestry at off
  unfold resolve at off ⊢
  cases named : d.name with
  | none => rfl
  | some own =>
    have different : own ≠ name := fun same => other (named.trans (congrArg some same))
    simp only [named, firstParent_insert different] at off ⊢
    cases begins : hierarchy.firstParent own d.parent with
    | none => rfl
    | some first =>
      simp only [begins] at off ⊢
      simp only [ancestors, climb_insert off]

end Local

/-! ### A class that is new to the table -/

section New

/-- **The graph of a declaration keeps its edges** when a new class enters the table. -/
theorem edge_insert (new : name ∉ hierarchy.classes) (other : d.name ≠ some name)
    {child above : TypeName} (edge : hierarchy.Edge d child above) :
    (hierarchy.insert name parent).Edge d child above := by
  cases edge with
  | entry listed =>
    have different : child ≠ name := fun same => new (same ▸ List.mem_map_of_mem listed)
    refine .entry (parentOf_eq_some_iff.mp ?_)
    rw [parentOf_insert, if_neg different]
    exact parentOf_eq_some_iff.mpr listed
  | written named unknown isWritten =>
    refine .written named (fun known => ?_) isWritten
    rcases mem_classes_insert.mp known with rfl | old
    · exact other named
    · exact unknown old

/-- **The ancestry of a declaration only grows** when a new class enters the table. -/
theorem ancestry_insert (new : name ∉ hierarchy.classes) (other : d.name ≠ some name) :
    hierarchy.resolve.ancestry d ⊆ (hierarchy.insert name parent).resolve.ancestry d := by
  intro ancestor before
  cases named : d.name with
  | none =>
    rw [ancestry_anonymous named] at before
    cases before
  | some own =>
    obtain ⟨different, reached⟩ := (mem_ancestry_iff named).mp before
    exact (mem_ancestry_iff named).mpr ⟨different,
      Relation.TransGen.mono (fun _ _ edge => edge_insert new other edge) _ _ reached⟩

end New

/-- **What an edit does to the ancestry of another declaration.**  The edited class has its new parent.
A declaration that is not of this class and not below it gets the same answer with the same events.
If the class was not known before, every ancestor that the declaration had is still one, and with any
mapping every marker that was appended to it is still appended. -/
theorem resolve_after_insert (hierarchy : Hierarchy) (name parent : TypeName) (d : Declaration)
    (other : d.name ≠ some name) :
    (hierarchy.insert name parent).parentOf name = some parent ∧
    ((∀ chain, (hierarchy.resolve d).value = some chain → name ∉ chain) →
      (hierarchy.insert name parent).resolve d = hierarchy.resolve d) ∧
    (hierarchy.parentOf name = none →
      hierarchy.resolve.ancestry d ⊆ (hierarchy.insert name parent).resolve.ancestry d ∧
      ∀ mapping before, ((Rule.mk mapping hierarchy.resolve).apply d).value = .mutated before →
        ∃ after markers more,
          ((Rule.mk mapping (hierarchy.insert name parent).resolve).apply d).value = .mutated after ∧
          before = d.append markers ∧ after = d.append more ∧ markers ⊆ more) := by
  refine ⟨?_, fun off => resolve_insert other ?_, fun unknown => ?_⟩
  · rw [parentOf_insert, if_pos rfl]
  · unfold Resolver.ancestry
    cases answer : (hierarchy.resolve d).value with
    | none => exact List.not_mem_nil
    | some chain => exact off chain answer
  · have new : name ∉ hierarchy.classes := parentOf_eq_none_iff.mp unknown
    have grown : hierarchy.resolve.ancestry d ⊆
        (hierarchy.insert name parent).resolve.ancestry d := ancestry_insert new other
    refine ⟨grown, fun mapping before mutated => ?_⟩
    obtain ⟨some, rfl⟩ := Rule.apply_eq_mutated_iff.mp mutated
    have kept : (Rule.mk mapping hierarchy.resolve).added d ⊆
        (Rule.mk mapping (hierarchy.insert name parent).resolve).added d := Rule.added_subset grown
    refine ⟨_, _, _, Rule.apply_eq_mutated_iff.mpr ⟨fun none => some ?_, rfl⟩, rfl, rfl, kept⟩
    exact List.subset_nil.mp (none ▸ kept)

namespace Branch

/-- A class below a base, and a class beside them. -/
def leaf : TypeName := ⟨"Leaf", by decide⟩
def base : TypeName := ⟨"Base", by decide⟩
def aside : TypeName := ⟨"Aside", by decide⟩

/-- The base has no parent yet. -/
def table : Hierarchy := (Hierarchy.empty.insert leaf base).insert aside leaf

/-- The marker of the base. -/
def crest : TypeName := ⟨"Crest", by decide⟩

def configured : Mapping := Mapping.empty.push base [crest] (by decide)

end Branch

open Branch in
/-- Giving the class beside another parent changes nothing for the class below; giving the base that
class for a parent closes a circle, which is told, and loses neither the ancestor nor its marker. -/
theorem branch_edited :
    (table.insert aside base).resolve (.named leaf) = table.resolve (.named leaf) ∧
      base ∈ (table.insert base leaf).resolve.ancestry (.named leaf) ∧
      ((table.insert base leaf).resolve (.named leaf)).events = [.cycle leaf leaf] ∧
      ∃ more, ((Rule.mk configured (table.insert base leaf).resolve).apply (.named leaf)).value =
        .mutated ((Declaration.named leaf).append more) ∧ crest ∈ more := by
  have chain : (table.resolve (.named leaf)).value = some [base] := by decide +kernel
  have mutated : ((Rule.mk configured table.resolve).apply (.named leaf)).value =
      .mutated ((Declaration.named leaf).append [crest]) := by
    decide +kernel
  obtain ⟨_, same, _⟩ := resolve_after_insert table aside base (.named leaf) (by decide)
  obtain ⟨_, _, grows⟩ := resolve_after_insert table base leaf (.named leaf) (by decide)
  obtain ⟨kept, appended⟩ := grows (by decide)
  obtain ⟨after, markers, more, outcome, before, rfl, subset⟩ := appended configured _ mutated
  refine ⟨same fun found answer => ?_, kept ?_, by decide +kernel, more, outcome, subset ?_⟩
  · obtain rfl : [base] = found := Option.some.inj (chain.symm.trans answer)
    decide
  · unfold Resolver.ancestry
    rw [chain]
    exact List.mem_cons_self
  · have uses := congrArg Declaration.uses before
    rw [Declaration.uses_append, Declaration.uses_append] at uses
    exact List.append_cancel_left uses ▸ List.mem_cons_self

end Hierarchy

end Mixin
