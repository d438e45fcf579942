/-
**The order of the entries decides the order of the markers, and nothing else.**

Two mappings are the same when they give the same bases the same lists of markers, in whatever order
the bases were configured.  Which base a common marker comes from and where it lands depends on that
order; which markers are added does not.

* `Table.same_iff_perm` — tables that compare equal hold the same pairs in another order.
* `added_perm` — equal mappings add the same markers, in another order.
* **`outcome_of_same`** — the outcomes of the rule with two equal mappings.
-/

import Mathlib.Data.List.Nodup
import Mathlib.Data.List.Perm.Subperm
import Mixin.Proofs.Rule.Additions

namespace Mixin

/-! ### Equal tables -/

section Tables

variable {κ ν : Type}

namespace Table

theorem nodup_pairs (table : Table κ ν) : table.pairs.Nodup :=
  List.Nodup.of_map Prod.fst table.distinct

/-- **Tables that compare equal** hold the same pairs, in whatever order. -/
theorem same_iff_perm [DecidableEq κ] [DecidableEq ν] {left right : Table κ ν} :
    left.same right = true ↔ left.pairs.Perm right.pairs := by
  unfold same
  rw [Bool.and_eq_true, beq_iff_eq, List.all_eq_true]
  simp only [beq_iff_eq, get?_eq_some_iff]
  constructor
  · rintro ⟨sizes, found⟩
    -- As many distinct pairs, all of them on the other side, leave no pair over there.
    exact (List.subperm_of_subset left.nodup_pairs found).perm_of_length_le (Nat.le_of_eq sizes.symm)
  · intro reordered
    exact ⟨reordered.length_eq, fun pair member => reordered.mem_iff.mp member⟩

end Table

end Tables

namespace Rule

section Equal

variable {left right : Mapping} {resolver : Resolver} {d : Declaration}

theorem nodup_added (rule : Rule) (d : Declaration) : (rule.added d).Nodup :=
  nodup_map_freshBy Prod.snd d.uses _

/-- **Equal mappings add the same markers**, each once. -/
theorem added_perm (same : left.same right = true) :
    ((Rule.mk left resolver).added d).Perm ((Rule.mk right resolver).added d) := by
  have entries : ∀ entry, entry ∈ left.entries ↔ entry ∈ right.entries := fun entry =>
    (Table.same_iff_perm.mp same).mem_iff
  refine (List.perm_ext_iff_of_nodup (nodup_added _ d) (nodup_added _ d)).mpr fun marker => ?_
  rw [mem_added_iff, mem_added_iff]
  simp only [entries]

end Equal

/-- **Equal mappings graft the same markers.**  With two mappings that compare equal and one resolver, a
declaration stays under both rules or changes under both; then both results have its name, its written
parent and its statements, the appended statements are the same up to their order, and no marker is
among them twice. -/
theorem outcome_of_same (left right : Mapping) (same : left.same right = true)
    (resolver : Resolver) (d : Declaration) :
    let first := ((Rule.mk left resolver).apply d).value
    let second := ((Rule.mk right resolver).apply d).value
    (first = .unchanged ∧ second = .unchanged) ∨
    ∃ one other statements others, first = .mutated one ∧ second = .mutated other ∧
      (one.name = d.name ∧ one.parent = d.parent ∧ one.body = d.body ++ statements) ∧
      (other.name = d.name ∧ other.parent = d.parent ∧ other.body = d.body ++ others) ∧
      statements.Perm others ∧ (statements.flatMap Statement.markers).Nodup ∧
      (others.flatMap Statement.markers).Nodup := by
  intro first second
  have reordered : ((Rule.mk left resolver).added d).Perm ((Rule.mk right resolver).added d) :=
    added_perm same
  by_cases nothing : (Rule.mk left resolver).added d = []
  · refine .inl ⟨apply_eq_unchanged_iff.mpr nothing, apply_eq_unchanged_iff.mpr ?_⟩
    exact List.perm_nil.mp (nothing ▸ reordered).symm
  · have something : (Rule.mk right resolver).added d ≠ [] := fun none =>
      nothing (List.perm_nil.mp (none ▸ reordered))
    refine .inr ⟨_, _, _, _, apply_eq_mutated_iff.mpr ⟨nothing, rfl⟩,
      apply_eq_mutated_iff.mpr ⟨something, rfl⟩, ⟨rfl, rfl, rfl⟩, ⟨rfl, rfl, rfl⟩,
      reordered.map _, ?_, ?_⟩
    · rw [Statement.flatMap_markers_single]
      exact nodup_added _ d
    · rw [Statement.flatMap_markers_single]
      exact nodup_added _ d

namespace Crossed

/-- Two bases, and a marker that both of them list. -/
def north : TypeName := ⟨"North", by decide⟩
def south : TypeName := ⟨"South", by decide⟩
def common : TypeName := ⟨"Common", by decide⟩

/-- A marker of the second base alone, which lists it before the common one. -/
def early : TypeName := ⟨"Early", by decide⟩

/-- The two bases in one order and in the other. -/
def northFirst : Mapping :=
  (Mapping.empty.push north [common] (by decide)).push south [early, common] (by decide)
def southFirst : Mapping :=
  (Mapping.empty.push south [early, common] (by decide)).push north [common] (by decide)

end Crossed

open Crossed in
/-- In one order the common marker comes from the first base and stands in front; in the other it comes
from the second and stands behind. -/
theorem crossed_orders :
    let first := ((Rule.mk northFirst (.fixed [south, north])).apply .anonymous).value
    let second := ((Rule.mk southFirst (.fixed [south, north])).apply .anonymous).value
    first = .mutated (Declaration.anonymous.append [common, early]) ∧
      second = .mutated (Declaration.anonymous.append [early, common]) ∧
      ∃ one other statements others, first = .mutated one ∧ second = .mutated other ∧
        one.body = statements ∧ other.body = others ∧ statements.Perm others := by
  intro first second
  have mutated : first = .mutated (Declaration.anonymous.append [common, early]) := by
    decide +kernel
  refine ⟨mutated, by decide +kernel, ?_⟩
  rcases outcome_of_same northFirst southFirst (by decide) (.fixed [south, north]) .anonymous with
    unchanged | ⟨one, other, statements, others, isOne, isOther, ⟨_, _, body⟩, ⟨_, _, otherBody⟩,
      reordered, _⟩
  · rw [show ((Rule.mk northFirst (.fixed [south, north])).apply .anonymous).value = first from rfl,
      mutated] at unchanged
    cases unchanged.1
  · exact ⟨one, other, statements, others, isOne, isOther, body, otherBody, reordered⟩

end Rule

end Mixin
