/-
**How far an ancestry goes.**

From a first parent the table gives a walk, `p 0` being the first parent and `p (i + 1)` the parent of
`p i` as long as there is one; in a table with cycles the walk has no end (`Hierarchy.walk`).  The
ancestry of a class is the part of the walk before the first name that is the class itself or has been
passed: it is the longest beginning of the walk without such a name.

* `climb_takes`, `climb_end` — a climb passes the names of the walk, one by one, and stops at the
  place where the walk ends or comes back to a name passed before.
* `length_le_of_clear` — no beginning of the walk that repeats nothing goes further.
* `length_climb_le` — every name of the chain but the last is known to the table, which bounds it.
* **`ancestors_exact`** — the chain, the warning, and the bounds.
-/

import Mathlib.Data.List.Nodup
import Mixin.Proofs.Hierarchy.Reachability

namespace Mixin

namespace Hierarchy

/-- The names above a class, from its first parent on, as far as parents are known. -/
def walk (hierarchy : Hierarchy) (first : TypeName) : Nat → Option TypeName
  | 0 => some first
  | place + 1 => (hierarchy.walk first place).bind hierarchy.parentOf

/-- The names stand at the beginning of the walk, in its order. -/
def BeginsWalk (hierarchy : Hierarchy) (first : TypeName) (names : List TypeName) : Prop :=
  ∀ place, place < names.length → names[place]? = hierarchy.walk first place

/-- The names are distinct and none is that of the class. -/
structure Clear (name : TypeName) (names : List TypeName) : Prop where
  distinct : names.Nodup
  other : name ∉ names

variable {hierarchy : Hierarchy} {seen : List TypeName} {name first : TypeName}

/-! ### The walk -/

section Walk

/-- The walk from a class with a parent goes on as the walk from the parent. -/
theorem walk_succ {parent : TypeName} (found : hierarchy.parentOf first = some parent)
    (place : Nat) : hierarchy.walk first (place + 1) = hierarchy.walk parent place := by
  induction place with
  | zero => exact found
  | succ place ih =>
    rw [walk, ih]
    rfl

/-- A name of the walk that another follows is known to the table. -/
theorem mem_classes_of_walk {place : Nat} {next : TypeName}
    (here : hierarchy.walk first place = some name)
    (goesOn : hierarchy.walk first (place + 1) = some next) : name ∈ hierarchy.classes := by
  rw [walk, here] at goesOn
  exact mem_classes_of_parentOf goesOn

end Walk

/-! ### Where a climb goes, and where it ends -/

section Climb

variable (hierarchy)

/-- **A climb passes the names of the walk.** -/
theorem climb_takes (seen : List TypeName) (first : TypeName) :
    hierarchy.BeginsWalk first (hierarchy.climb seen first).chain := by
  fun_induction climb hierarchy seen first with
  | case1 seen name old => exact fun place short => absurd short (Nat.not_lt_zero place)
  | case2 seen name new unknown =>
    intro place short
    obtain rfl : place = 0 := Nat.lt_one_iff.mp short
    rfl
  | case3 seen name new parent found shorter above ih =>
    intro place short
    cases place with
    | zero => rfl
    | succ place =>
      rw [walk_succ found, List.getElem?_cons_succ]
      exact ih place (Nat.lt_of_succ_lt_succ short)

/-- **A climb ends where the walk ends or comes back**, and tells at which name. -/
theorem climb_end (seen : List TypeName) (first : TypeName) :
    (hierarchy.climb seen first).repeated =
        hierarchy.walk first (hierarchy.climb seen first).chain.length ∧
      ∀ back, (hierarchy.climb seen first).repeated = some back →
        back ∈ seen ∨ back ∈ (hierarchy.climb seen first).chain := by
  fun_induction climb hierarchy seen first with
  | case1 seen name old =>
    refine ⟨rfl, fun back same => .inl ?_⟩
    obtain rfl := Option.some.inj same
    exact old
  | case2 seen name new unknown =>
    refine ⟨unknown.symm, fun back same => ?_⟩
    cases same
  | case3 seen name new parent found shorter above ih =>
    refine ⟨?_, fun back same => ?_⟩
    · rw [List.length_cons, walk_succ found]
      exact ih.1
    · rcases ih.2 back same with before | passed
      · rcases List.mem_cons.mp before with here | old
        · exact .inr (here ▸ List.mem_cons_self)
        · exact .inl old
      · exact .inr (List.mem_cons_of_mem _ passed)

/-- A climb passes no name twice. -/
theorem nodup_climb (seen : List TypeName) (first : TypeName) :
    (hierarchy.climb seen first).chain.Nodup := by
  fun_induction climb hierarchy seen first with
  | case1 seen name old => exact List.nodup_nil
  | case2 seen name new unknown => exact List.nodup_singleton name
  | case3 seen name new parent found shorter above ih =>
    refine List.nodup_cons.mpr ⟨fun again => ?_, ih⟩
    exact not_mem_seen_of_mem_climb again List.mem_cons_self

theorem clear_climb (name first : TypeName) : Clear name (hierarchy.climb [name] first).chain :=
  ⟨nodup_climb hierarchy _ _, fun passed => not_mem_seen_of_mem_climb passed List.mem_cons_self⟩

variable {hierarchy}

/-- **No beginning of the walk without repetition goes further than the climb**: at the place where
the climb stopped it would have to repeat a name or to name the class. -/
theorem length_le_of_clear {names : List TypeName} (begins : hierarchy.BeginsWalk first names)
    (clear : Clear name names) :
    names.length ≤ (hierarchy.climb [name] first).chain.length := by
  by_contra further
  have inside : (hierarchy.climb [name] first).chain.length < names.length := by omega
  obtain ⟨stops, comesBack⟩ := climb_end hierarchy [name] first
  have taken := climb_takes hierarchy [name] first
  generalize hierarchy.climb [name] first = climbed at inside stops comesBack taken
  have next : climbed.repeated = some names[climbed.chain.length] := by
    rw [stops, ← begins _ inside]
    exact List.getElem?_eq_getElem inside
  rcases comesBack _ next with itself | passed
  · exact clear.other (List.mem_singleton.mp itself ▸ List.getElem_mem inside)
  · -- The name stands at an earlier place of the walk, hence of the longer beginning.
    obtain ⟨place, earlier, same⟩ := List.mem_iff_getElem.mp passed
    have atPlace : names[place]? = some names[climbed.chain.length] := by
      rw [begins place (by omega), ← taken place earlier, List.getElem?_eq_getElem earlier, same]
    have samePlace : place = climbed.chain.length :=
      (List.Nodup.getElem_inj_iff clear.distinct).mp
        (Option.some.inj ((List.getElem?_eq_getElem (by omega)).symm.trans atPlace))
    omega

end Climb

/-! ### Bounds -/

section Bounds

/-- A name of the chain is known to the table if the walk goes on behind it. -/
theorem mem_classes_of_goesOn {place : Nat} {next : TypeName}
    (inside : place < (hierarchy.climb seen first).chain.length)
    (goesOn : hierarchy.walk first (place + 1) = some next) :
    (hierarchy.climb seen first).chain[place] ∈ hierarchy.classes := by
  have here := climb_takes hierarchy seen first place inside
  rw [List.getElem?_eq_getElem inside] at here
  exact mem_classes_of_walk here.symm goesOn

/-- A name of the chain that another follows is known to the table. -/
theorem mem_classes_of_followed {place : Nat}
    (inside : place + 1 < (hierarchy.climb seen first).chain.length) :
    (hierarchy.climb seen first).chain[place] ∈ hierarchy.classes := by
  have next := climb_takes hierarchy seen first (place + 1) inside
  rw [List.getElem?_eq_getElem inside] at next
  exact mem_classes_of_goesOn (by omega) next.symm

/-- Every name of the chain but the last is known to the table. -/
theorem dropLast_climb_subset :
    (hierarchy.climb seen first).chain.dropLast ⊆ hierarchy.classes := by
  intro other member
  obtain ⟨place, short, rfl⟩ := List.mem_iff_getElem.mp member
  rw [List.getElem_dropLast]
  rw [List.length_dropLast] at short
  exact mem_classes_of_followed (by omega)

/-- If the climb came back, the last name is known too. -/
theorem climb_subset {back : TypeName}
    (comesBack : (hierarchy.climb seen first).repeated = some back) :
    (hierarchy.climb seen first).chain ⊆ hierarchy.classes := by
  intro other member
  obtain ⟨place, inside, rfl⟩ := List.mem_iff_getElem.mp member
  by_cases last : place + 1 = (hierarchy.climb seen first).chain.length
  · have goesOn : hierarchy.walk first (place + 1) = some back := by
      rw [last, ← (climb_end hierarchy seen first).1, comesBack]
    exact mem_classes_of_goesOn inside goesOn
  · exact mem_classes_of_followed (by omega)

/-- Distinct known classes are no more than the table has entries. -/
theorem length_le_size {names : List TypeName} (distinct : names.Nodup)
    (known : names ⊆ hierarchy.classes) : names.length ≤ hierarchy.size := by
  have bound := distinct.length_le_of_subset known
  rwa [show hierarchy.classes.length = hierarchy.size from List.length_map _] at bound

/-- **The chain is as long as the table at most, or one name longer**; not longer when the table knows
the class or the climb came back. -/
theorem length_climb_le (hierarchy : Hierarchy) (name first : TypeName) :
    (hierarchy.climb [name] first).chain.length ≤ hierarchy.size + 1 ∧
      (name ∈ hierarchy.classes ∨ (hierarchy.climb [name] first).repeated ≠ none →
        (hierarchy.climb [name] first).chain.length ≤ hierarchy.size) := by
  have clear := clear_climb hierarchy name first
  have distinct : (hierarchy.climb [name] first).chain.dropLast.Nodup :=
    clear.distinct.sublist (List.dropLast_sublist _)
  have short : (hierarchy.climb [name] first).chain.dropLast.length =
      (hierarchy.climb [name] first).chain.length - 1 := List.length_dropLast
  constructor
  · have bound := length_le_size distinct dropLast_climb_subset
    omega
  · rintro (known | returned)
    · -- The class is one more known name that the chain does not have.
      have apart : name ∉ (hierarchy.climb [name] first).chain.dropLast := fun member =>
        clear.other ((List.dropLast_sublist _).subset member)
      have bound := length_le_size (List.nodup_cons.mpr ⟨apart, distinct⟩)
        (List.cons_subset.mpr ⟨known, dropLast_climb_subset⟩)
      rw [List.length_cons] at bound
      omega
    · obtain ⟨back, comesBack⟩ := Option.ne_none_iff_exists'.mp returned
      exact length_le_size clear.distinct (climb_subset comesBack)

end Bounds

/-- **The ancestry of a class from a first parent on.**  It is the longest beginning of the walk whose
names are distinct and are not the class; there is one warning, with the class and the next name of
the walk, when the walk goes on, and none when it does not; and the chain has at most one name more
than the table has entries, and no more than these when the table knows the class or when there is a
warning. -/
theorem ancestors_exact (hierarchy : Hierarchy) (name first : TypeName) :
    let found := hierarchy.ancestors name first
    (hierarchy.BeginsWalk first found.value ∧ Clear name found.value ∧
      ∀ names, hierarchy.BeginsWalk first names → Clear name names →
        names.length ≤ found.value.length) ∧
    (found.events = ((hierarchy.walk first found.value.length).map (Event.cycle name)).toList ∧
      ∀ event ∈ found.events, event.level = .warn) ∧
    found.value.length ≤ hierarchy.size + 1 ∧
    (name ∈ hierarchy.classes ∨ found.events ≠ [] → found.value.length ≤ hierarchy.size) := by
  have stops := (climb_end hierarchy [name] first).1
  have bounds := length_climb_le hierarchy name first
  have told : (hierarchy.ancestors name first).events =
      ((hierarchy.climb [name] first).repeated.map (Event.cycle name)).toList := by
    show (hierarchy.climb [name] first).repeated.toList.map (Event.cycle name) = _
    cases (hierarchy.climb [name] first).repeated with
    | none => rfl
    | some back => rfl
  refine ⟨⟨climb_takes hierarchy [name] first, clear_climb hierarchy name first,
    fun names begins clear => length_le_of_clear begins clear⟩,
    ⟨?_, ?_⟩, bounds.1, fun either => bounds.2 ?_⟩
  · rw [told, stops]
    rfl
  · intro event member
    rw [told, Option.mem_toList, Option.map_eq_some_iff] at member
    obtain ⟨back, _, rfl⟩ := member
    rfl
  · refine either.imp_right fun some none => some ?_
    rw [told, none]
    rfl

namespace MutualParents

/-- Two classes of which each is the parent of the other, and a third below them. -/
def left : TypeName := ⟨"L", by decide⟩
def right : TypeName := ⟨"R", by decide⟩
def below : TypeName := ⟨"X", by decide⟩

/-- The third class is not in the table. -/
def table : Hierarchy := (Hierarchy.empty.insert left right).insert right left

end MutualParents

open MutualParents in
/-- From outside the circle both its classes are passed before it closes. -/
theorem ancestors_around_circle :
    (table.ancestors below left).value = [left, right] ∧
      (table.ancestors below left).events = [.cycle below left] ∧
      [left, right].length ≤ (table.ancestors below left).value.length ∧
      (table.ancestors below left).value.length ≤ table.size := by
  have begins : table.BeginsWalk left [left, right] := by
    unfold BeginsWalk
    decide
  have warned : (table.ancestors below left).events = [.cycle below left] := by decide +kernel
  obtain ⟨⟨_, _, longest⟩, _, _, bounded⟩ := ancestors_exact table below left
  refine ⟨by decide +kernel, warned, longest _ begins ⟨by decide, by decide⟩, bounded (.inr ?_)⟩
  rw [warned]
  exact List.cons_ne_nil _ _

end Hierarchy

end Mixin
