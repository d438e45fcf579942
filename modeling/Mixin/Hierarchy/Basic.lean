/-
**Class hierarchies and ancestry.**

A hierarchy is a table from classes to their direct parents.  The ancestry of a class is found by
climbing the table from a first parent: `Hierarchy.climb` goes on as long as parents are known and
stops at the first name it has passed before, so it ends even when the table has cycles.
-/

import Mixin.Event
import Mixin.Table

namespace Mixin

/-- The direct parent of each known class. -/
structure Hierarchy where
  /-- The entries: a class and its parent each. -/
  parents : Table TypeName TypeName

namespace Hierarchy

/-- The hierarchy that knows no class. -/
def empty : Hierarchy := ⟨Table.empty⟩

instance : Inhabited Hierarchy := ⟨empty⟩

/-- The number of known classes. -/
def size (hierarchy : Hierarchy) : Nat := hierarchy.parents.size

/-- Whether no class is known. -/
def isEmpty (hierarchy : Hierarchy) : Bool := hierarchy.parents.isEmpty

/-- The known classes. -/
def classes (hierarchy : Hierarchy) : List TypeName := hierarchy.parents.keys

/-- The direct parent of a class, if the class is known. -/
def parentOf (hierarchy : Hierarchy) (name : TypeName) : Option TypeName :=
  hierarchy.parents.get? name

/-- Records the parent of a class, and gives the parent that it had before, if it had one. -/
def exchange (hierarchy : Hierarchy) (name parent : TypeName) : Option TypeName × Hierarchy :=
  (hierarchy.parentOf name, ⟨hierarchy.parents.insert name parent⟩)

/-- Records the parent of a class, in place of an earlier one. -/
def insert (hierarchy : Hierarchy) (name parent : TypeName) : Hierarchy :=
  (hierarchy.exchange name parent).2

/-! ### Climbing -/

/-- A class with a parent is known. -/
theorem mem_classes_of_parentOf {hierarchy : Hierarchy} {name parent : TypeName}
    (found : hierarchy.parentOf name = some parent) : name ∈ hierarchy.classes :=
  isSome_valueAt_iff.mp (Option.isSome_of_eq_some found)

/-- A class without a parent is not known. -/
theorem parentOf_eq_none_iff {hierarchy : Hierarchy} {name : TypeName} :
    hierarchy.parentOf name = none ↔ name ∉ hierarchy.classes := by
  rw [← Option.not_isSome_iff_eq_none]
  exact not_congr isSome_valueAt_iff

/-- The number of known classes that have not been passed. -/
def unseen (hierarchy : Hierarchy) (seen : List TypeName) : Nat :=
  hierarchy.classes.countP fun other => decide (other ∉ seen)

/-- Passing a known class leaves fewer known classes to pass. -/
theorem unseen_cons_lt {hierarchy : Hierarchy} {seen : List TypeName} {name : TypeName}
    (known : name ∈ hierarchy.classes) (new : name ∉ seen) :
    hierarchy.unseen (name :: seen) < hierarchy.unseen seen := by
  unfold unseen
  generalize hierarchy.classes = classes at known
  induction classes with
  | nil => cases known
  | cons first rest ih =>
    have fewer : (rest.countP fun other => decide (other ∉ name :: seen)) ≤
        rest.countP fun other => decide (other ∉ seen) :=
      List.countP_mono_left fun other _ kept => by
        simp only [decide_eq_true_eq] at kept ⊢
        exact fun old => kept (List.mem_cons_of_mem _ old)
    rw [List.countP_cons, List.countP_cons]
    by_cases here : first = name
    · subst here
      simp only [List.mem_cons_self, not_true_eq_false, decide_false, new, not_false_eq_true,
        decide_true, Bool.false_eq_true, if_false, if_true]
      omega
    · have later := ih ((List.mem_cons.mp known).resolve_left fun same => here same.symm)
      have alike : decide (first ∉ name :: seen) = decide (first ∉ seen) := by
        simp only [List.mem_cons, here, false_or]
      rw [alike]
      omega

/-- Where a climb led: the names passed, and the name at which it came back. -/
structure Climb where
  /-- The names passed, nearest first. -/
  chain : List TypeName
  /-- The name that had been passed before, if the climb ended there. -/
  repeated : Option TypeName
deriving DecidableEq

/-- Climbs from a name, past names not in `seen`. -/
def climb (hierarchy : Hierarchy) (seen : List TypeName) (name : TypeName) : Climb :=
  if old : name ∈ seen then ⟨[], some name⟩
  else match found : hierarchy.parentOf name with
    | none => ⟨[name], none⟩
    | some parent =>
      have _ := unseen_cons_lt (mem_classes_of_parentOf found) old
      let above := climb hierarchy (name :: seen) parent
      ⟨name :: above.chain, above.repeated⟩
termination_by hierarchy.unseen seen

/-- A climb ends at a name without a parent. -/
theorem climb_of_unknown {hierarchy : Hierarchy} {seen : List TypeName} {name : TypeName}
    (new : name ∉ seen) (unknown : hierarchy.parentOf name = none) :
    hierarchy.climb seen name = ⟨[name], none⟩ := by
  rw [climb, dif_neg new]
  split
  · rfl
  · rename_i parent found
    rw [unknown] at found
    cases found

/-- A climb goes on from a name with a parent. -/
theorem climb_of_known {hierarchy : Hierarchy} {seen : List TypeName} {name parent : TypeName}
    (new : name ∉ seen) (known : hierarchy.parentOf name = some parent) :
    hierarchy.climb seen name =
      ⟨name :: (hierarchy.climb (name :: seen) parent).chain,
        (hierarchy.climb (name :: seen) parent).repeated⟩ := by
  rw [climb, dif_neg new]
  split
  · rename_i unknown
    rw [known] at unknown
    cases unknown
  · rename_i other found
    obtain rfl : parent = other := Option.some.inj (known.symm.trans found)
    rfl

/-- The ancestry of a class from a first parent on, with a warning if it comes back. -/
def ancestors (hierarchy : Hierarchy) (name first : TypeName) : Logged (List TypeName) :=
  let climbed := hierarchy.climb [name] first
  ⟨climbed.chain, climbed.repeated.toList.map (Event.cycle name)⟩

end Hierarchy

end Mixin
