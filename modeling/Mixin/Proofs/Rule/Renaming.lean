/-
**Only the identity of names matters.**

Replacing every name in a mapping, a hierarchy and a declaration, distinct names by distinct names,
replaces the names in what the rule gives and does nothing else.  So nothing in the rule looks inside
a name: no beginning, no ending, no case of a letter and no order of names has a part in it.

* `Mapping.rename`, `Hierarchy.rename`, `Declaration.rename` — the replacement, in each kind of data.
* `climb_rename` — one step of a climb compares names with names passed before and looks up a parent,
  and both commute with the replacement.
* `freshBy_map` — so does telling first occurrences from later ones.
* **`apply_rename`** — the outcome of the rule, with its names replaced.
-/

import Mathlib.Data.List.Nodup
import Mathlib.Logic.Equiv.Basic
import Mixin.Proofs.Rule.Additions

namespace Mixin

/-! ### Renaming -/

section Data

variable (f : TypeName → TypeName)

/-- A mapping with its bases and markers renamed. -/
def Mapping.rename (injective : Function.Injective f) (mapping : Mapping) : Mapping where
  table := mapping.table.relabel f (List.map f) injective
  distinct := by
    intro entry member
    obtain ⟨old, entered, rfl⟩ := List.mem_map.mp member
    exact (mapping.distinct old entered).map injective

/-- A hierarchy with its classes and their parents renamed. -/
def Hierarchy.rename (injective : Function.Injective f) (hierarchy : Hierarchy) : Hierarchy :=
  ⟨hierarchy.parents.relabel f f injective⟩

/-- A statement with its markers renamed; a member stays as it is. -/
def Statement.rename : Statement → Statement
  | use markers => use (markers.map f)
  | member text => member text

/-- A declaration with its name, its parent and the markers in its body renamed. -/
def Declaration.rename (d : Declaration) : Declaration where
  name := d.name.map f
  parent := d.parent.map f
  body := d.body.map (Statement.rename f)

/-- An outcome with its declaration renamed. -/
def Outcome.rename : Outcome → Outcome
  | unchanged => unchanged
  | mutated after => mutated (after.rename f)

end Data

variable {f : TypeName → TypeName}

/-! ### Declarations -/

section Declarations

theorem Declaration.uses_rename (d : Declaration) : (d.rename f).uses = d.uses.map f := by
  have each : ∀ statement : Statement, (statement.rename f).markers = statement.markers.map f := by
    intro statement
    cases statement <;> rfl
  simp only [uses, rename, List.flatMap_map, List.map_flatMap, each]

theorem Declaration.append_rename (d : Declaration) (markers : List TypeName) :
    (d.append markers).rename f = (d.rename f).append (markers.map f) := by
  simp only [append, rename, List.map_append, List.map_map]
  rfl

end Declarations

/-! ### Climbing -/

section Climbing

theorem valueAt_map (injective : Function.Injective f) {ν ν' : Type} (onValue : ν → ν')
    (name : TypeName) (pairs : List (TypeName × ν)) :
    valueAt (f name) (pairs.map (Prod.map f onValue)) = (valueAt name pairs).map onValue := by
  induction pairs with
  | nil => rfl
  | cons pair rest ih =>
    by_cases here : pair.1 = name
    · simp [valueAt, here]
    · simp [valueAt, here, injective.ne here, ih]

namespace Hierarchy

variable (injective : Function.Injective f) (hierarchy : Hierarchy)

theorem parentOf_rename (name : TypeName) :
    (hierarchy.rename f injective).parentOf (f name) = (hierarchy.parentOf name).map f :=
  valueAt_map injective f name hierarchy.parents.pairs

/-- **A climb in the renamed hierarchy** passes the renamed names and comes back where it did. -/
theorem climb_rename (seen : List TypeName) (name : TypeName) :
    (hierarchy.rename f injective).climb (seen.map f) (f name) =
      ⟨(hierarchy.climb seen name).chain.map f, (hierarchy.climb seen name).repeated.map f⟩ := by
  fun_induction climb hierarchy seen name with
  | case1 seen name old =>
    have passed : f name ∈ seen.map f := List.mem_map_of_mem old
    rw [climb, dif_pos passed]
    rfl
  | case2 seen name new unknown =>
    have notPassed : f name ∉ seen.map f := fun again =>
      new ((List.mem_map_of_injective injective).mp again)
    have noParent : (hierarchy.rename f injective).parentOf (f name) = none := by
      rw [parentOf_rename, unknown]
      rfl
    rw [climb_of_unknown notPassed noParent]
    rfl
  | case3 seen name new parent found shorter above ih =>
    have notPassed : f name ∉ seen.map f := fun again =>
      new ((List.mem_map_of_injective injective).mp again)
    have sameParent : (hierarchy.rename f injective).parentOf (f name) = some (f parent) := by
      rw [parentOf_rename, found]
      rfl
    rw [List.map_cons] at ih
    simp only [climb_of_known notPassed sameParent, ih, above, List.map_cons]

theorem firstParent_rename (name : TypeName) (written : Option TypeName) :
    (hierarchy.rename f injective).firstParent (f name) (written.map f) =
      (hierarchy.firstParent name written).map f := by
  unfold firstParent
  rw [parentOf_rename]
  cases hierarchy.parentOf name <;> rfl

/-- The ancestry of a renamed declaration is the renamed ancestry. -/
theorem ancestry_rename (d : Declaration) :
    (hierarchy.rename f injective).resolve.ancestry (d.rename f) =
      (hierarchy.resolve.ancestry d).map f := by
  unfold Resolver.ancestry resolve
  cases named : d.name with
  | none => simp [Declaration.rename, named]
  | some name =>
    have first := hierarchy.firstParent_rename injective name d.parent
    simp only [Declaration.rename, named, Option.map_some, first]
    cases hierarchy.firstParent name d.parent with
    | none => rfl
    | some parent =>
      have climbed := hierarchy.climb_rename injective [name] parent
      simp only [List.map_cons, List.map_nil] at climbed
      simp only [Option.map_some, ancestors, climbed, Option.getD_some]

end Hierarchy

end Climbing

/-! ### The rule -/

/-- First occurrences are found again after an injective replacement of the keys. -/
theorem freshBy_map {α β κ κ' : Type} [DecidableEq κ] [DecidableEq κ'] {key : α → κ}
    {newKey : β → κ'} {onItem : α → β} {onKey : κ → κ'} (injective : Function.Injective onKey)
    (same : ∀ item, newKey (onItem item) = onKey (key item)) (seen : List κ) (items : List α) :
    freshBy newKey (seen.map onKey) (items.map onItem) = (freshBy key seen items).map onItem := by
  induction items generalizing seen with
  | nil => rfl
  | cons item rest ih =>
    have sameSeen : onKey (key item) ∈ seen.map onKey ↔ key item ∈ seen :=
      List.mem_map_of_injective injective
    have grown := ih (key item :: seen)
    rw [List.map_cons] at grown
    by_cases old : key item ∈ seen
    · simp [freshBy, same, sameSeen, old, ih seen]
    · simp [freshBy, same, sameSeen, old, grown]

namespace Rule

section Renaming

variable (injective : Function.Injective f)

theorem candidates_rename (mapping : Mapping) (chain : List TypeName) :
    candidates (mapping.rename f injective) (chain.map f) =
      (candidates mapping chain).map (Prod.map f f) := by
  have entries : (mapping.rename f injective).entries =
      mapping.entries.map (Prod.map f (List.map f)) := rfl
  have matching : ∀ base : TypeName, decide (f base ∈ chain.map f) = decide (base ∈ chain) := by
    intro base
    exact decide_eq_decide.mpr (List.mem_map_of_injective injective)
  unfold candidates
  rw [entries, List.filter_map, List.flatMap_map, List.map_flatMap]
  simp only [Function.comp_def, List.map_map, Prod.map, matching]

/-- **What the rule adds**, renamed. -/
theorem added_rename (mapping : Mapping) (hierarchy : Hierarchy) (d : Declaration) :
    (Rule.mk (mapping.rename f injective) (hierarchy.rename f injective).resolve).added
        (d.rename f) =
      ((Rule.mk mapping hierarchy.resolve).added d).map f := by
  have fresh : ∀ (used : List TypeName) (found : List (TypeName × TypeName)),
      freshBy Prod.snd (used.map f) (found.map (Prod.map f f)) =
        (freshBy Prod.snd used found).map (Prod.map f f) :=
    freshBy_map injective fun _ => rfl
  unfold added additions
  dsimp only
  rw [hierarchy.ancestry_rename injective, candidates_rename, Declaration.uses_rename, fresh,
    List.map_map, List.map_map]
  rfl

/-- **The outcome of the rule**, renamed. -/
theorem apply_rename (mapping : Mapping) (hierarchy : Hierarchy) (d : Declaration) :
    ((Rule.mk (mapping.rename f injective) (hierarchy.rename f injective).resolve).apply
        (d.rename f)).value =
      ((Rule.mk mapping hierarchy.resolve).apply d).value.rename f := by
  rw [apply_value, apply_value, added_rename]
  by_cases nothing : (Rule.mk mapping hierarchy.resolve).added d = []
  · simp [nothing, Outcome.rename]
  · simp [nothing, Outcome.rename, Declaration.append_rename]

end Renaming

/-- **Only the identity of names matters.**  With every name replaced by its image under an injective
function, the rule leaves a declaration unchanged exactly when it did before, and otherwise gives the
former result with every name replaced. -/
theorem outcome_under_renaming (f : TypeName → TypeName) (injective : Function.Injective f)
    (mapping : Mapping) (hierarchy : Hierarchy) (d : Declaration) :
    let before := ((Rule.mk mapping hierarchy.resolve).apply d).value
    let after := ((Rule.mk (mapping.rename f injective) (hierarchy.rename f injective).resolve).apply
      (d.rename f)).value
    (after = .unchanged ↔ before = .unchanged) ∧
      ∀ changed, before = .mutated changed → after = .mutated (changed.rename f) := by
  intro before after
  have renamed : after = before.rename f := apply_rename injective mapping hierarchy d
  rw [renamed]
  refine ⟨?_, fun changed mutated => by rw [mutated]; rfl⟩
  cases before <;> simp [Outcome.rename]

namespace NearMiss

/-- Two names of which one begins like the other, and a class below the longer one. -/
def short : TypeName := ⟨"Near", by decide⟩
def long : TypeName := ⟨"NearBy", by decide⟩
def child : TypeName := ⟨"By\\Near", by decide⟩

/-- A marker for each of the two. -/
def forShort : TypeName := ⟨"Short", by decide⟩
def forLong : TypeName := ⟨"Long", by decide⟩

def configured : Mapping :=
  (Mapping.empty.push short [forShort] (by decide)).push long [forLong, child] (by decide)

def table : Hierarchy := Hierarchy.empty.insert child long

/-- The class, with the shorter name written as its parent and as the text of a member. -/
def written (parent : TypeName) : Declaration :=
  ((Declaration.named child).extending parent).push (.member "Near")

/-- The two names trade places. -/
def trade : TypeName → TypeName := Equiv.swap short long

theorem trade_injective : Function.Injective trade := (Equiv.swap short long).injective

end NearMiss

open NearMiss in
/-- The class gets the markers of the longer name, its parent by the table.  When the two names trade
places it gets the same markers by the shorter name, and the text of the member stays; a class below
neither is left alone as before. -/
theorem traded_near_miss :
    let renamed := Rule.mk (configured.rename trade trade_injective)
      (table.rename trade trade_injective).resolve
    (renamed.apply ((written short).rename trade)).value =
        .mutated ((written long).append [forLong, child]) ∧
      (renamed.apply ((Declaration.named forLong).rename trade)).value = .unchanged := by
  have mutated : ((Rule.mk configured table.resolve).apply (written short)).value =
      .mutated ((written short).append [forLong, child]) := by
    decide +kernel
  have unchanged : ((Rule.mk configured table.resolve).apply (.named forLong)).value =
      .unchanged := by
    decide +kernel
  have result : ((written short).append [forLong, child]).rename trade =
      (written long).append [forLong, child] := by
    decide +kernel
  refine ⟨?_, ?_⟩
  · rw [(outcome_under_renaming trade trade_injective configured table (written short)).2 _ mutated,
      result]
  · exact (outcome_under_renaming trade trade_injective configured table (.named forLong)).1.mpr
      unchanged

end Rule

end Mixin
