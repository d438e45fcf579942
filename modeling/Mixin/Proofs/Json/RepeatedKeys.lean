/-
**What is left of members with one key.**

Pairs are put into a table one by one; a pair whose key is known takes the place of the one before it.
So a table made of pairs has, of the pairs with one key, the last one, and this is what is left of the
members of an object when a text has been read.

* `LastFor pairs pair` — no later pair has the key of this one.
* **`Table.mem_ofPairs_iff`** — a table made of pairs has the last pair of each key.
* `Json.parse_of_members` — a document is the table of the members written in it.
-/

import Mathlib.Data.List.Induction
import Mixin.Proofs.Json.Reading

namespace Mixin

/-! ### Last pairs -/

section Keys

variable {κ ν μ : Type} {pairs : List (κ × ν)} {pair last : κ × ν} {key : κ} {value : ν}

/-- The pair is the last one with its key. -/
def LastFor (pairs : List (κ × ν)) (pair : κ × ν) : Prop :=
  ∃ before after, pairs = before ++ pair :: after ∧ pair.1 ∉ after.map Prod.fst

theorem LastFor.mem (isLast : LastFor pairs pair) : pair ∈ pairs := by
  obtain ⟨before, after, rfl, _⟩ := isLast
  simp

/-- Every key has a last pair. -/
theorem exists_lastFor (written : key ∈ pairs.map Prod.fst) : ∃ value, LastFor pairs (key, value) := by
  induction pairs with
  | nil => cases written
  | cons first rest ih =>
    by_cases again : key ∈ rest.map Prod.fst
    · obtain ⟨value, before, after, rfl, isLast⟩ := ih again
      exact ⟨value, first :: before, after, rfl, isLast⟩
    · rcases List.mem_cons.mp written with rfl | later
      · exact ⟨first.2, [], rest, rfl, again⟩
      · exact absurd later again

/-- Behind one pair more, the last pairs are this one and those with other keys. -/
theorem lastFor_concat :
    LastFor (pairs ++ [last]) pair ↔ pair = last ∨ (pair.1 ≠ last.1 ∧ LastFor pairs pair) := by
  constructor
  · rintro ⟨before, after, split, isLast⟩
    rcases List.eq_nil_or_concat after with rfl | ⟨between, final, rfl⟩
    · obtain ⟨_, same⟩ := List.append_inj' split rfl
      exact .inl (List.singleton_inj.mp same).symm
    · have shorter : pairs ++ [last] = (before ++ pair :: between) ++ [final] := by simpa using split
      obtain ⟨rfl, same⟩ := List.append_inj' shorter rfl
      obtain rfl := List.singleton_inj.mp same
      rw [List.concat_eq_append, List.map_append, List.mem_append, not_or] at isLast
      exact .inr ⟨by simpa using isLast.2, before, between, rfl, isLast.1⟩
  · rintro (rfl | ⟨different, before, after, rfl, isLast⟩)
    · exact ⟨pairs, [], rfl, List.not_mem_nil⟩
    · exact ⟨before, after ++ [last], by simp, by simpa [different] using isLast⟩

variable [DecidableEq κ]

/-- Placing puts one pair in the place of those with its key. -/
theorem mem_place_iff (distinct : (pairs.map Prod.fst).Nodup) :
    pair ∈ place key value pairs ↔ pair = (key, value) ∨ (pair.1 ≠ key ∧ pair ∈ pairs) := by
  induction pairs with
  | nil => simp [place]
  | cons first rest ih =>
    obtain ⟨new, distinctRest⟩ := List.nodup_cons.mp distinct
    rw [place]
    by_cases same : first.1 = key
    · subst same
      have apart : pair ∈ rest → pair.1 ≠ first.1 := fun member equal =>
        new (equal ▸ List.mem_map_of_mem member)
      rw [if_pos rfl, List.mem_cons, List.mem_cons]
      grind
    · rw [if_neg same, List.mem_cons, List.mem_cons, ih distinctRest]
      grind

theorem place_map (f : ν → μ) (key : κ) (value : ν) (pairs : List (κ × ν)) :
    place key (f value) (pairs.map (Prod.map id f)) =
      (place key value pairs).map (Prod.map id f) := by
  induction pairs with
  | nil => rfl
  | cons first rest ih =>
    simp only [List.map_cons, place, Prod.map_fst, id_eq]
    split
    · rfl
    · rw [List.map_cons, ih]

namespace Table

theorem pairs_ofPairs_concat (pairs : List (κ × ν)) (last : κ × ν) :
    (ofPairs (pairs ++ [last])).pairs = place last.1 last.2 (ofPairs pairs).pairs := by
  unfold ofPairs
  rw [List.foldl_append]
  rfl

/-- **A table made of pairs has the last pair of each key.** -/
theorem mem_ofPairs_iff : pair ∈ (ofPairs pairs).pairs ↔ LastFor pairs pair := by
  induction pairs using List.reverseRecOn with
  | nil => simp [ofPairs, empty, LastFor]
  | append_singleton pairs last ih =>
    rw [pairs_ofPairs_concat, mem_place_iff (ofPairs pairs).distinct, lastFor_concat, ih]

/-- Pairs without a repeated key are a table as they are. -/
theorem pairs_ofPairs_of_nodup (distinct : (pairs.map Prod.fst).Nodup) :
    (ofPairs pairs).pairs = pairs := by
  induction pairs using List.reverseRecOn with
  | nil => rfl
  | append_singleton pairs last ih =>
    rw [List.map_append, List.nodup_append] at distinct
    obtain ⟨distinctBefore, _, apart⟩ := distinct
    have new : last.1 ∉ pairs.map Prod.fst := fun old =>
      apart _ old last.1 (List.mem_singleton.mpr rfl) rfl
    rw [pairs_ofPairs_concat, ih distinctBefore, place_of_not_mem new]

/-- The pairs of a table make the table again. -/
theorem ofPairs_pairs (table : Table κ ν) : ofPairs table.pairs = table := by
  have same := pairs_ofPairs_of_nodup table.distinct
  obtain ⟨pairs, distinct⟩ := table
  dsimp only at same ⊢
  generalize ofPairs pairs = made at same ⊢
  obtain ⟨_, _⟩ := made
  obtain rfl : _ = pairs := same
  rfl

/-- Values may be changed before or after the pairs are put together. -/
theorem pairs_ofPairs_map (f : ν → μ) (pairs : List (κ × ν)) :
    (ofPairs (pairs.map (Prod.map id f))).pairs = (ofPairs pairs).pairs.map (Prod.map id f) := by
  induction pairs using List.reverseRecOn with
  | nil => rfl
  | append_singleton pairs last ih =>
    rw [List.map_append, List.map_singleton, pairs_ofPairs_concat, pairs_ofPairs_concat, ih]
    exact place_map f last.1 last.2 _

end Table

end Keys

/-! ### Objects -/

section Objects

variable {text : String} {members : List (String × Json)}

namespace Json

theorem collapseMembers_concat (placed : List (String × Json)) (members : List (String × Json))
    (last : String × Json) :
    collapseMembers placed (members ++ [last]) =
      place last.1 last.2.collapse (collapseMembers placed members) := by
  induction members generalizing placed with
  | nil => rfl
  | cons first rest ih =>
    obtain ⟨key, value⟩ := first
    rw [List.cons_append, collapseMembers, collapseMembers, ih]

/-- Collapsing an object makes a table of its members. -/
theorem collapseMembers_eq (members : List (String × Json)) :
    collapseMembers [] members = (Table.ofPairs (members.map (Prod.map id collapse))).pairs := by
  induction members using List.reverseRecOn with
  | nil => rfl
  | append_singleton members last ih =>
    rw [collapseMembers_concat, ih, List.map_append, List.map_singleton, Table.pairs_ofPairs_concat]
    rfl

/-- Of an object in a text the last member of each key is left, if no value has repeated keys. -/
theorem parse_of_members (written : parseRaw text = .ok (.obj members))
    (plain : ∀ member ∈ members, member.2.collapse = member.2) :
    parse text = .ok (.obj (Table.ofPairs members).pairs) := by
  have unchanged : members.map (Prod.map id collapse) = members :=
    calc members.map (Prod.map id collapse) = members.map id :=
          List.map_congr_left fun member listed => Prod.ext rfl (plain member listed)
      _ = members := List.map_id members
  unfold parse
  rw [written]
  show Except.ok (collapse (.obj members)) = _
  rw [collapse, collapseMembers_eq, unchanged]

end Json

end Objects

end Mixin
