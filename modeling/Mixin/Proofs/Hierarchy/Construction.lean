/-
**Which drafts make a hierarchy.**

A draft is built into a hierarchy entry by entry, as a mapping is, but the checks come in another
order: the class, its parent, and only then whether the class was there before.

* `Good`, `Flaw` — what makes an entry acceptable behind others, and what is wrong with it otherwise.
* **`admission`** — the good entries of a draft become the entries of the table, in order and in normal
  form, and the first flaw is the error.
* `throughout_good_iff` — a draft without flaws, described without an order of its entries.
* `resolve_congr` — a resolver looks at nothing of a table but the parents of its classes.
* **`draft_exact`** — when a draft is accepted, what it becomes in whatever order it is written, and
  which error it gives otherwise.
-/

import Mixin.Hierarchy.Load
import Mixin.Proofs.Computation
import Mixin.Proofs.Configuration.Admission
import Mixin.Resolver

namespace Mixin

namespace Hierarchy

/-! ### Good entries and flaws -/

section Entries

/-- **An entry is good** behind the entries written earlier: both its names are well spelt, and its
class is not the class of an earlier entry. -/
structure Good (earlier : List (String × String)) (raw : String × String) : Prop where
  spelt : ∃ name, TypeName.parse raw.1 = .ok name
  parent : ∃ parent, TypeName.parse raw.2 = .ok parent
  new : ∀ name, TypeName.parse raw.1 = .ok name →
    ∀ other ∈ earlier, TypeName.parse other.1 ≠ .ok name

/-- **What is wrong with an entry** behind the entries written earlier.  A flaw counts only if none of
the flaws above it is there. -/
inductive Flaw (earlier : List (String × String)) (raw : String × String) : ConfigurationError → Prop
  | misspelt {error : InvalidName} :
      TypeName.parse raw.1 = .error error → Flaw earlier raw (.invalidClass error)
  | misspeltParent {name : TypeName} {error : InvalidName} : TypeName.parse raw.1 = .ok name →
      TypeName.parse raw.2 = .error error → Flaw earlier raw (.invalidClass error)
  | repeated {name parent : TypeName} {other : String × String} :
      TypeName.parse raw.1 = .ok name → TypeName.parse raw.2 = .ok parent →
      other ∈ earlier → TypeName.parse other.1 = .ok name → Flaw earlier raw (.duplicateClass name)

/-- The names of an entry, in normal form. -/
structure Reads (raw : String × String) (pair : TypeName × TypeName) : Prop where
  name : TypeName.parse raw.1 = .ok pair.1
  parent : TypeName.parse raw.2 = .ok pair.2

/-- **An entry is good or flawed.** -/
theorem good_or_flaw (earlier : List (String × String)) (raw : String × String) :
    Good earlier raw ∨ ∃ error, Flaw earlier raw error := by
  cases spelt : TypeName.parse raw.1 with
  | error error => exact .inr ⟨_, .misspelt spelt⟩
  | ok name =>
    cases above : TypeName.parse raw.2 with
    | error error => exact .inr ⟨_, .misspeltParent spelt above⟩
    | ok parent =>
      by_cases known : ∃ other ∈ earlier, TypeName.parse other.1 = .ok name
      · obtain ⟨other, member, same⟩ := known
        exact .inr ⟨_, .repeated spelt above member same⟩
      · refine .inl ⟨⟨name, spelt⟩, ⟨parent, above⟩, fun found same other member again => known ?_⟩
        obtain rfl := Except.ok.inj (spelt.symm.trans same)
        exact ⟨other, member, again⟩

end Entries

/-! ### Adding entries -/

section Adding

variable {raws : List (String × String)} {raw : String × String} {hierarchy : Hierarchy}
  {error : ConfigurationError}

theorem parseName_eq (text : String) :
    parseName text = (TypeName.parse text).mapError .invalidClass := by
  unfold parseName
  cases TypeName.parse text <;> rfl

/-- **A draft is built entry by entry.** -/
theorem ofDraft_eq_foldlM (draft : Draft) : ofDraft draft = draft.pairs.foldlM addEntry empty := by
  have adding : ∀ hierarchy raws, addEntries hierarchy raws = List.foldlM addEntry hierarchy raws := by
    intro hierarchy raws
    induction raws generalizing hierarchy with
    | nil => rfl
    | cons raw rest ih =>
      simp only [addEntries, List.foldlM_cons, ih]
  exact adding empty draft.pairs

/-- The classes built so far are those that earlier entries are written for. -/
theorem mem_classes_iff (built : List.Forall₂ Reads raws hierarchy.parents.pairs) {name : TypeName} :
    name ∈ hierarchy.classes ↔ ∃ other ∈ raws, TypeName.parse other.1 = .ok name := by
  constructor
  · intro known
    obtain ⟨pair, member, rfl⟩ := List.mem_map.mp known
    obtain ⟨raw, written, reads⟩ := exists_left_of_mem built member
    exact ⟨raw, written, reads.name⟩
  · rintro ⟨other, written, same⟩
    obtain ⟨pair, member, reads⟩ := exists_right_of_mem built written
    obtain rfl := Except.ok.inj (reads.name.symm.trans same)
    exact List.mem_map_of_mem member

/-- A class has a parent when an entry is written for the two. -/
theorem parentOf_iff (built : List.Forall₂ Reads raws hierarchy.parents.pairs)
    {name parent : TypeName} :
    hierarchy.parentOf name = some parent ↔
      ∃ raw ∈ raws, TypeName.parse raw.1 = .ok name ∧ TypeName.parse raw.2 = .ok parent := by
  unfold parentOf
  rw [Table.get?_eq_some_iff]
  constructor
  · intro member
    obtain ⟨raw, written, reads⟩ := exists_left_of_mem built member
    exact ⟨raw, written, reads.name, reads.parent⟩
  · rintro ⟨raw, written, spelt, above⟩
    obtain ⟨pair, member, reads⟩ := exists_right_of_mem built written
    obtain rfl := Except.ok.inj (reads.name.symm.trans spelt)
    obtain rfl := Except.ok.inj (reads.parent.symm.trans above)
    exact member

/-- A good entry becomes the last entry of the table. -/
theorem takes_addEntry (built : List.Forall₂ Reads raws hierarchy.parents.pairs)
    (good : Good raws raw) :
    ∃ next, hierarchy.addEntry raw = .ok next ∧
      List.Forall₂ Reads (raws ++ [raw]) next.parents.pairs := by
  obtain ⟨name, spelt⟩ := good.spelt
  obtain ⟨parent, above⟩ := good.parent
  have new : name ∉ hierarchy.classes := by
    intro known
    obtain ⟨other, written, same⟩ := (mem_classes_iff built).mp known
    exact good.new name spelt other written same
  have added : hierarchy.addEntry raw = .ok (hierarchy.insert name parent) := by
    unfold addEntry
    simp only [parseName_eq, spelt, above, Except.mapError, new, if_false, bind, Except.bind]
  have last : (hierarchy.insert name parent).parents.pairs =
      hierarchy.parents.pairs ++ [(name, parent)] := place_of_not_mem new
  refine ⟨_, added, ?_⟩
  rw [last]
  exact List.rel_append built (.cons ⟨spelt, above⟩ .nil)

/-- A flawed entry is the error. -/
theorem refuses_addEntry (built : List.Forall₂ Reads raws hierarchy.parents.pairs)
    (flaw : Flaw raws raw error) : hierarchy.addEntry raw = .error error := by
  unfold addEntry
  cases flaw with
  | misspelt bad => simp only [parseName_eq, bad, Except.mapError, bind, Except.bind]
  | misspeltParent spelt bad =>
    simp only [parseName_eq, spelt, bad, Except.mapError, bind, Except.bind]
  | @repeated name parent other spelt above written same =>
    have known : name ∈ hierarchy.classes := (mem_classes_iff built).mpr ⟨other, written, same⟩
    simp only [parseName_eq, spelt, above, Except.mapError, known, if_true, bind, Except.bind]

/-- **Adding entries admits the good ones and stops at the first flaw**; the table has the names of
the entries, in order. -/
theorem admission : Admission addEntry empty Good Flaw
    (fun raws hierarchy => List.Forall₂ Reads raws hierarchy.parents.pairs) where
  decided := good_or_flaw
  begins := .nil
  takes := takes_addEntry
  refuses := refuses_addEntry

end Adding

/-! ### The order of the entries -/

section Order

variable {raws : List (String × String)} {raw : String × String} {hierarchy other : Hierarchy}

/-- Two entries are not for one class. -/
def Apart (one other : String × String) : Prop :=
  ∀ name, TypeName.parse one.1 = .ok name → TypeName.parse other.1 ≠ .ok name

theorem Apart.symm {one other : String × String} (apart : Apart one other) : Apart other one :=
  fun name first second => apart name second first

/-- An entry is good when its names are well spelt and it is apart from those before it. -/
theorem good_iff {earlier : List (String × String)} :
    Good earlier raw ↔ (∃ pair, Reads raw pair) ∧ ∀ other ∈ earlier, Apart other raw := by
  constructor
  · rintro ⟨⟨name, spelt⟩, ⟨parent, above⟩, new⟩
    exact ⟨⟨(name, parent), spelt, above⟩, fun other written known same again =>
      new known again other written same⟩
  · rintro ⟨⟨pair, reads⟩, apart⟩
    exact ⟨⟨pair.1, reads.name⟩, ⟨pair.2, reads.parent⟩, fun name spelt other written same =>
      apart other written name same spelt⟩

/-- **Entries are good throughout** when all names are well spelt and all classes are distinct. -/
theorem throughout_good_iff :
    Throughout Good raws ↔ (∀ raw ∈ raws, ∃ pair, Reads raw pair) ∧ raws.Pairwise Apart := by
  induction raws using List.reverseRecOn with
  | nil => exact ⟨fun _ => ⟨nofun, .nil⟩, fun _ => throughout_nil⟩
  | append_singleton raws last ih =>
    rw [throughout_concat, ih, good_iff, List.forall_mem_append, List.forall_mem_singleton,
      List.pairwise_append]
    simp only [List.pairwise_singleton, List.mem_singleton, forall_eq, true_and]
    exact and_and_and_comm

/-- So they are good in any other order. -/
theorem throughout_good_of_perm {others : List (String × String)} (reordered : others.Perm raws)
    (good : Throughout Good raws) : Throughout Good others := by
  obtain ⟨spelt, apart⟩ := throughout_good_iff.mp good
  exact throughout_good_iff.mpr ⟨fun raw written => spelt raw (reordered.mem_iff.mp written),
    (reordered.pairwise_iff Apart.symm).mpr apart⟩

/-- A flawed entry is not good. -/
theorem Flaw.not_good {error : ConfigurationError} (flaw : Flaw raws raw error) : ¬ Good raws raw := by
  rintro ⟨⟨name, spelt⟩, ⟨parent, above⟩, new⟩
  cases flaw with
  | misspelt bad => cases spelt.symm.trans bad
  | misspeltParent _ bad => cases above.symm.trans bad
  | repeated known _ written same => exact new _ known _ written same

/-- **A climb looks at nothing of a table but the parents.** -/
theorem climb_congr (same : ∀ name, hierarchy.parentOf name = other.parentOf name)
    (seen : List TypeName) (name : TypeName) :
    hierarchy.climb seen name = other.climb seen name := by
  fun_induction climb hierarchy seen name with
  | case1 seen name old => rw [climb, dif_pos old]
  | case2 seen name new unknown => exact (climb_of_unknown new ((same name).symm.trans unknown)).symm
  | case3 seen name new parent found shorter above ih =>
    rw [climb_of_known new ((same name).symm.trans found), ← ih]

/-- **Tables with the same parents resolve every declaration alike**, events included. -/
theorem resolve_congr (same : ∀ name, hierarchy.parentOf name = other.parentOf name)
    (d : Declaration) : hierarchy.resolve d = other.resolve d := by
  unfold resolve firstParent ancestors
  simp only [same, climb_congr same]

end Order

/-- **What becomes of a draft.**

* It is accepted exactly when all its names are well spelt and its classes, in normal form, are
  distinct.
* Then the hierarchy knows as many classes as there are entries, it gives a class a parent exactly when
  an entry is written for the two, and the entries in any other order are accepted too and make a
  hierarchy that resolves every declaration alike.
* Otherwise there is a first entry that is not good, and the error says what is wrong with it: with its
  class, else with its parent, else that the class was there before. -/
theorem draft_exact (draft : Draft) :
    ((∃ hierarchy, ofDraft draft = .ok hierarchy) ↔
      (∀ raw ∈ draft.pairs, ∃ pair, Reads raw pair) ∧ draft.pairs.Pairwise Apart) ∧
    (∀ hierarchy, ofDraft draft = .ok hierarchy →
      hierarchy.size = draft.size ∧
      (∀ name parent, hierarchy.parentOf name = some parent ↔
        ∃ raw ∈ draft.pairs, TypeName.parse raw.1 = .ok name ∧ TypeName.parse raw.2 = .ok parent) ∧
      ∀ reordered : Draft, reordered.pairs.Perm draft.pairs →
        ∃ other, ofDraft reordered = .ok other ∧ ∀ d, other.resolve d = hierarchy.resolve d) ∧
    ∀ error, ofDraft draft = .error error ↔
      ∃ earlier raw later, draft.pairs = earlier ++ raw :: later ∧ Throughout Good earlier ∧
        ¬ Good earlier raw ∧ Flaw earlier raw error := by
  simp only [ofDraft_eq_foldlM]
  refine ⟨admission.ok_iff.trans throughout_good_iff, fun hierarchy done => ?_, fun error => ?_⟩
  · have built := admission.built_of_ok done
    refine ⟨built.length_eq.symm, fun name parent => parentOf_iff built, fun reordered moved => ?_⟩
    have good : Throughout Good reordered.pairs :=
      throughout_good_of_perm moved (admission.ok_iff.mp ⟨hierarchy, done⟩)
    obtain ⟨other, otherDone, otherBuilt⟩ := admission.built_of_throughout good
    refine ⟨other, otherDone, resolve_congr fun name => Option.ext fun parent => ?_⟩
    rw [parentOf_iff otherBuilt, parentOf_iff built]
    simp only [moved.mem_iff]
  · rw [admission.error_iff]
    constructor
    · rintro ⟨earlier, raw, later, split, good, flaw⟩
      exact ⟨earlier, raw, later, split, good, flaw.not_good, flaw⟩
    · rintro ⟨earlier, raw, later, split, good, _, flaw⟩
      exact ⟨earlier, raw, later, split, good, flaw⟩

namespace Turned

/-- Two classes. -/
def east : TypeName := ⟨"East", by decide⟩
def west : TypeName := ⟨"West", by decide⟩

/-- Each of the two is the parent of the other, in mixed spellings; and the same entries turned
around. -/
def circle : Draft := Table.ofPairs [("East", "\\West"), ("\\West", "East")]
def turned : Draft := Table.ofPairs [("\\West", "East"), ("East", "\\West")]

/-- The second entry is for the class of the first, and its parent is misspelt too. -/
def twoFlaws : Draft := Table.ofPairs [("East", "West"), ("\\East", "1")]

end Turned

open Turned in
/-- A circle turned around resolves every declaration as before; and of two flaws in one entry the
misspelt parent is the one reported. -/
theorem turned_entries :
    (∃ hierarchy other, ofDraft circle = .ok hierarchy ∧ ofDraft turned = .ok other ∧
      hierarchy.size = 2 ∧ hierarchy.parentOf west = some east ∧
      ∀ d, other.resolve d = hierarchy.resolve d) ∧
    ∃ error, TypeName.parse "1" = .error error ∧
      ofDraft twoFlaws = .error (.invalidClass error) := by
  constructor
  · obtain ⟨hierarchy, done, size⟩ := @exists_ok_of_seen _ _ _ (ofDraft circle)
      Hierarchy.size 2 (by decide +kernel)
    obtain ⟨_, parents, orders⟩ := (draft_exact circle).2.1 hierarchy done
    obtain ⟨other, otherDone, alike⟩ := orders turned (by decide)
    have listed : ("\\West", "East") ∈ circle.pairs := by decide
    exact ⟨hierarchy, other, done, otherDone, size, (parents west east).mpr
      ⟨_, listed, rfl, rfl⟩, alike⟩
  · cases bad : TypeName.parse "1" with
    | ok name =>
      have refused : (TypeName.parse "1").toOption = none := by decide
      rw [bad] at refused
      cases refused
    | error error =>
      have first : Good [] ("East", "West") := ⟨⟨east, rfl⟩, ⟨west, rfl⟩, nofun⟩
      have flaw : Flaw [("East", "West")] ("\\East", "1") (.invalidClass error) :=
        .misspeltParent (show TypeName.parse "\\East" = .ok east from rfl) bad
      exact ⟨error, rfl, ((draft_exact twoFlaws).2.2 _).mpr ⟨[("East", "West")], _, [], by decide,
        throughout_concat.mpr ⟨throughout_nil, first⟩, flaw.not_good, flaw⟩⟩

end Hierarchy

end Mixin
