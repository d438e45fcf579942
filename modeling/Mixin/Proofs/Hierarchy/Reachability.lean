/-
**Ancestry is reachability.**

A climb through a hierarchy stops at the first name it has passed before.  Nothing above the class is
lost by that: when a climb ends, the names it has passed are closed under taking parents, so whatever
can be reached from the class is among them.

* `Hierarchy.Edge hierarchy d` — the graph of a declaration: every entry of the table, and the
  written parent of a class that the table does not know.
* `climb_closed` — the names passed before and during a climb contain the parents of each other.
* `reachable_of_mem_climb` — every name passed during a climb is reached from where it began.
* **`mem_ancestry_iff`** — the ancestry of a named class is what its graph reaches in one step or
  more, except the class itself.
-/

import Mathlib.Logic.Relation
import Mixin.Resolver

namespace Mixin

namespace Hierarchy

/-- The graph of a declaration: an edge from every class of the table to its parent, and one from the
declared class to its written parent when the table does not know the class. -/
inductive Edge (hierarchy : Hierarchy) (d : Declaration) : TypeName → TypeName → Prop
  | entry {child parent : TypeName} :
      (child, parent) ∈ hierarchy.parents.pairs → Edge hierarchy d child parent
  | written {child parent : TypeName} :
      d.name = some child → child ∉ hierarchy.classes → d.parent = some parent →
      Edge hierarchy d child parent

variable {hierarchy : Hierarchy}

/-! ### What a climb passes -/

section Climb

theorem parentOf_eq_some_iff {child parent : TypeName} :
    hierarchy.parentOf child = some parent ↔ (child, parent) ∈ hierarchy.parents.pairs :=
  Table.get?_eq_some_iff

/-- The name a climb begins at was passed before or is passed now. -/
theorem start_mem_climb (seen : List TypeName) (name : TypeName) :
    name ∈ seen ∨ name ∈ (hierarchy.climb seen name).chain := by
  unfold climb
  split
  · rename_i old
    exact .inl old
  · split
    · exact .inr List.mem_cons_self
    · exact .inr List.mem_cons_self

/-- A climb passes no name twice. -/
theorem not_mem_seen_of_mem_climb {seen : List TypeName} {name other : TypeName}
    (passed : other ∈ (hierarchy.climb seen name).chain) : other ∉ seen := by
  fun_induction climb hierarchy seen name with
  | case1 seen name old => cases passed
  | case2 seen name new unknown =>
    obtain rfl := List.mem_singleton.mp passed
    exact new
  | case3 seen name new parent found shorter above ih =>
    rcases List.mem_cons.mp passed with rfl | later
    · exact new
    · exact fun old => ih later (List.mem_cons_of_mem _ old)

/-- **What a climb passes is reached from where it began.** -/
theorem reachable_of_mem_climb {seen : List TypeName} {name other : TypeName}
    (passed : other ∈ (hierarchy.climb seen name).chain) :
    Relation.ReflTransGen (fun child parent => hierarchy.parentOf child = some parent)
      name other := by
  fun_induction climb hierarchy seen name with
  | case1 seen name old => cases passed
  | case2 seen name new unknown =>
    obtain rfl := List.mem_singleton.mp passed
    exact .refl
  | case3 seen name new parent found shorter above ih =>
    rcases List.mem_cons.mp passed with rfl | later
    · exact .refl
    · exact .head found (ih later)

/-- **A climb ends with a closed set of names.**  If the only parent that the names passed before may
lack among themselves is the name the climb begins at, then at its end none is lacking. -/
theorem climb_closed {seen : List TypeName} {name : TypeName}
    (pending : ∀ child ∈ seen, ∀ parent, hierarchy.parentOf child = some parent →
      parent ∈ seen ∨ parent = name) :
    ∀ child, child ∈ seen ∨ child ∈ (hierarchy.climb seen name).chain →
      ∀ parent, hierarchy.parentOf child = some parent →
        parent ∈ seen ∨ parent ∈ (hierarchy.climb seen name).chain := by
  fun_induction climb hierarchy seen name with
  | case1 seen name old =>
    intro child passed parent known
    have before : child ∈ seen := passed.resolve_right List.not_mem_nil
    rcases pending child before parent known with inside | rfl
    · exact .inl inside
    · exact .inl old
  | case2 seen name new unknown =>
    intro child passed parent known
    rcases passed with before | here
    · rcases pending child before parent known with inside | rfl
      · exact .inl inside
      · exact .inr List.mem_cons_self
    · -- The climb ended here because this name has no parent.
      obtain rfl := List.mem_singleton.mp here
      rw [unknown] at known
      cases known
  | case3 seen name new next found shorter above ih =>
    have pendingAbove : ∀ child ∈ name :: seen, ∀ parent, hierarchy.parentOf child = some parent →
        parent ∈ name :: seen ∨ parent = next := by
      intro child passed parent known
      rcases List.mem_cons.mp passed with rfl | before
      · rw [found] at known
        exact .inr (Option.some.inj known).symm
      · rcases pending child before parent known with inside | rfl
        · exact .inl (List.mem_cons_of_mem _ inside)
        · exact .inl List.mem_cons_self
    -- Moving the name from the chain to the names passed before changes no membership.
    have moved : ∀ other, (other ∈ seen ∨ other ∈ name :: above.chain) ↔
        other ∈ name :: seen ∨ other ∈ above.chain := by
      intro other
      simp only [List.mem_cons]
      exact or_left_comm.trans or_assoc.symm
    intro child passed parent known
    exact (moved parent).mpr (ih pendingAbove child ((moved child).mp passed) parent known)

end Climb

/-! ### The ancestry of a declaration -/

section Ancestry

variable {d : Declaration} {name : TypeName}

/-- The ancestry of an anonymous class has no names. -/
theorem ancestry_anonymous (anonymous : d.name = none) : hierarchy.resolve.ancestry d = [] := by
  unfold Resolver.ancestry resolve
  rw [anonymous]
  rfl

/-- The edge that leaves the declared class goes to the first parent. -/
theorem edge_iff_firstParent (named : d.name = some name) {parent : TypeName} :
    hierarchy.Edge d name parent ↔ hierarchy.firstParent name d.parent = some parent := by
  unfold firstParent
  cases known : hierarchy.parentOf name with
  | some first =>
    constructor
    · intro edge
      cases edge with
      | entry listed => rw [← known, parentOf_eq_some_iff.mpr listed]
      | written _ unknown _ => exact absurd (mem_classes_of_parentOf known) unknown
    · intro same
      exact .entry (parentOf_eq_some_iff.mp (known.trans same))
  | none =>
    have unknown : name ∉ hierarchy.classes := parentOf_eq_none_iff.mp known
    constructor
    · intro edge
      cases edge with
      | entry listed => rw [parentOf_eq_some_iff.mpr listed] at known; cases known
      | written _ _ written => exact written
    · exact .written named unknown

/-- Only one edge leaves the declared class. -/
theorem edge_unique (named : d.name = some name) {first other : TypeName}
    (toFirst : hierarchy.Edge d name first) (toOther : hierarchy.Edge d name other) :
    other = first := by
  have left := (edge_iff_firstParent named).mp toFirst
  have right := (edge_iff_firstParent named).mp toOther
  exact Option.some.inj (right.symm.trans left)

/-- The edges that leave any other class are those of the table. -/
theorem edge_iff_parentOf (named : d.name = some name) {child parent : TypeName}
    (other : child ≠ name) :
    hierarchy.Edge d child parent ↔ hierarchy.parentOf child = some parent := by
  constructor
  · intro edge
    cases edge with
    | entry listed => exact parentOf_eq_some_iff.mpr listed
    | written same _ _ => exact absurd (Option.some.inj (same.symm.trans named)) other
  · exact fun known => .entry (parentOf_eq_some_iff.mp known)

/-- The ancestry of a named class with a parent is one climb. -/
theorem ancestry_eq_climb (named : d.name = some name) {first : TypeName}
    (edge : hierarchy.Edge d name first) :
    hierarchy.resolve.ancestry d = (hierarchy.climb [name] first).chain := by
  unfold Resolver.ancestry resolve
  rw [named]
  simp only [(edge_iff_firstParent named).mp edge]
  rfl

/-- The ancestry of a named class without a parent has no names. -/
theorem ancestry_eq_nil (named : d.name = some name)
    (noEdge : ∀ first, ¬ hierarchy.Edge d name first) : hierarchy.resolve.ancestry d = [] := by
  have orphan : hierarchy.firstParent name d.parent = none := by
    rw [Option.eq_none_iff_forall_ne_some]
    exact fun first same => noEdge first ((edge_iff_firstParent named).mpr same)
  unfold Resolver.ancestry resolve
  rw [named]
  simp only [orphan]
  rfl

/-- Every name that the graph reaches from a class is the class itself or is passed by the climb. -/
theorem passed_of_reachable (named : d.name = some name) {first other : TypeName}
    (edge : hierarchy.Edge d name first)
    (reached : Relation.ReflTransGen (hierarchy.Edge d) name other) :
    other ∈ [name] ∨ other ∈ (hierarchy.climb [name] first).chain := by
  have pending : ∀ child ∈ [name], ∀ parent, hierarchy.parentOf child = some parent →
      parent ∈ [name] ∨ parent = first := by
    intro child only parent known
    obtain rfl := List.mem_singleton.mp only
    exact .inr (edge_unique named edge (.entry (parentOf_eq_some_iff.mp known)))
  induction reached with
  | refl => exact .inl List.mem_cons_self
  | @tail child parent _ step ih =>
    by_cases same : child = name
    · subst same
      obtain rfl := edge_unique named edge step
      exact start_mem_climb [child] parent
    · exact climb_closed pending child ih parent ((edge_iff_parentOf named same).mp step)

/-- **The ancestry of a named class is what its graph reaches**, by one edge or more, the class itself
apart. -/
theorem mem_ancestry_iff (named : d.name = some name) {other : TypeName} :
    other ∈ hierarchy.resolve.ancestry d ↔
      other ≠ name ∧ Relation.TransGen (hierarchy.Edge d) name other := by
  by_cases leaves : ∃ first, hierarchy.Edge d name first
  · obtain ⟨first, edge⟩ := leaves
    rw [ancestry_eq_climb named edge]
    constructor
    · intro passed
      have known := reachable_of_mem_climb passed
      have reached : Relation.ReflTransGen (hierarchy.Edge d) first other :=
        Relation.ReflTransGen.mono
          (fun child parent step => Edge.entry (parentOf_eq_some_iff.mp step)) _ _ known
      exact ⟨fun same => not_mem_seen_of_mem_climb passed (List.mem_singleton.mpr same),
        .head' edge reached⟩
    · rintro ⟨different, reached⟩
      have passed := passed_of_reachable named edge reached.to_reflTransGen
      exact passed.resolve_left fun same => different (List.mem_singleton.mp same)
  · have noEdge : ∀ first, ¬ hierarchy.Edge d name first := fun first edge => leaves ⟨first, edge⟩
    rw [ancestry_eq_nil named noEdge]
    constructor
    · intro impossible
      cases impossible
    · rintro ⟨_, reached⟩
      obtain ⟨first, edge, _⟩ := Relation.TransGen.head'_iff.mp reached
      exact absurd edge (noEdge first)

end Ancestry

end Hierarchy

end Mixin
