/-
**Tables: finite maps that remember the order of insertion.**

A `Table` is a list of pairs without repeated keys.  `Table.insert` gives a new key the last place
and leaves a known key in its place with the new value, so that a table built from pairs one by one
keeps the first place and the last value of each key.  Two tables are the `same` when they hold the
same pairs, in whatever order.
-/

namespace Mixin

variable {κ ν : Type}

/-! ### Pair lists -/

/-- Puts a value at a key: in place when the key is known, at the end otherwise. -/
def place [DecidableEq κ] (key : κ) (value : ν) : List (κ × ν) → List (κ × ν)
  | [] => [(key, value)]
  | pair :: rest =>
    if pair.1 = key then (key, value) :: rest else pair :: place key value rest

/-- The value at the first occurrence of a key. -/
def valueAt [DecidableEq κ] (key : κ) : List (κ × ν) → Option ν
  | [] => none
  | pair :: rest => if pair.1 = key then some pair.2 else valueAt key rest

/-- Placing changes no key but the one placed. -/
theorem mem_keys_place [DecidableEq κ] {key other : κ} {value : ν} {pairs : List (κ × ν)} :
    other ∈ (place key value pairs).map Prod.fst ↔ other = key ∨ other ∈ pairs.map Prod.fst := by
  induction pairs with
  | nil => simp [place]
  | cons pair rest ih =>
    rw [place]
    split
    · rename_i same
      simp only [List.map_cons, List.mem_cons, same]
      exact ⟨fun found => found.elim Or.inl fun later => .inr (.inr later),
        fun found => found.elim Or.inl id⟩
    · simp only [List.map_cons, List.mem_cons, ih]
      exact ⟨fun found => found.elim (fun first => .inr (.inl first))
          fun later => later.elim Or.inl fun deep => .inr (.inr deep),
        fun found => found.elim (fun new => .inr (.inl new))
          fun later => later.elim Or.inl fun deep => .inr (.inr deep)⟩

/-- A new key is placed at the end. -/
theorem place_of_not_mem [DecidableEq κ] {key : κ} {value : ν} {pairs : List (κ × ν)}
    (new : key ∉ pairs.map Prod.fst) : place key value pairs = pairs ++ [(key, value)] := by
  induction pairs with
  | nil => rfl
  | cons pair rest ih =>
    rw [List.map_cons, List.mem_cons, not_or] at new
    rw [place, if_neg fun same => new.1 same.symm, ih new.2, List.cons_append]

/-- Placing repeats no key. -/
theorem nodup_keys_place [DecidableEq κ] (key : κ) (value : ν) {pairs : List (κ × ν)}
    (distinct : (pairs.map Prod.fst).Nodup) : ((place key value pairs).map Prod.fst).Nodup := by
  induction pairs with
  | nil => simp [place]
  | cons pair rest ih =>
    obtain ⟨new, distinctRest⟩ := List.nodup_cons.mp distinct
    rw [place]
    split
    · rename_i same
      exact List.nodup_cons.mpr ⟨same ▸ new, distinctRest⟩
    · rename_i different
      refine List.nodup_cons.mpr ⟨fun again => ?_, ih distinctRest⟩
      exact (mem_keys_place.mp again).elim different new

/-- A key has a value exactly when it stands in the list. -/
theorem isSome_valueAt_iff [DecidableEq κ] {key : κ} {pairs : List (κ × ν)} :
    (valueAt key pairs).isSome ↔ key ∈ pairs.map Prod.fst := by
  induction pairs with
  | nil => simp [valueAt]
  | cons pair rest ih =>
    rw [valueAt]
    split
    · rename_i same
      simp [same]
    · rename_i different
      rw [ih, List.map_cons, List.mem_cons]
      exact ⟨Or.inr, fun found => found.resolve_left fun same => different same.symm⟩

/-- Placing a value changes what is found at its key and nothing else. -/
theorem valueAt_place [DecidableEq κ] (key other : κ) (value : ν) (pairs : List (κ × ν)) :
    valueAt other (place key value pairs) =
      if other = key then some value else valueAt other pairs := by
  induction pairs with
  | nil => simp only [place, valueAt, eq_comm]
  | cons pair rest ih =>
    by_cases here : pair.1 = key
    · rw [place, if_pos here, valueAt, valueAt, here]
      by_cases same : other = key
      · rw [if_pos same, if_pos same.symm]
      · have different : key ≠ other := fun found => same found.symm
        rw [if_neg same, if_neg different, if_neg different]
    · rw [place, if_neg here, valueAt, valueAt, ih]
      by_cases found : pair.1 = other
      · rw [if_pos found, if_neg fun same => here (found.trans same), if_pos found]
      · rw [if_neg found, if_neg found]

/-- Where no key is repeated, the value at a key is the one it is paired with. -/
theorem valueAt_eq_some_iff [DecidableEq κ] {key : κ} {value : ν} {pairs : List (κ × ν)}
    (distinct : (pairs.map Prod.fst).Nodup) :
    valueAt key pairs = some value ↔ (key, value) ∈ pairs := by
  induction pairs with
  | nil => simp [valueAt]
  | cons pair rest ih =>
    obtain ⟨new, distinctRest⟩ := List.nodup_cons.mp distinct
    rw [valueAt, List.mem_cons]
    split
    · rename_i same
      subst same
      -- A second pair with this key would repeat it.
      have absent : (pair.1, value) ∉ rest := fun later =>
        new (List.mem_map.mpr ⟨_, later, rfl⟩)
      simp only [absent, or_false, Option.some.injEq]
      exact ⟨fun found => found ▸ rfl, fun found => (congrArg Prod.snd found).symm⟩
    · rename_i different
      rw [ih distinctRest]
      exact ⟨Or.inr, fun found => found.resolve_left fun same => different (same ▸ rfl)⟩

/-! ### Tables -/

/-- A finite map in order of insertion. -/
structure Table (κ ν : Type) where
  /-- The pairs, oldest key first. -/
  pairs : List (κ × ν)
  /-- No key occurs twice. -/
  distinct : (pairs.map Prod.fst).Nodup

namespace Table

/-- The table without entries. -/
def empty : Table κ ν := ⟨[], List.nodup_nil⟩

instance : Inhabited (Table κ ν) := ⟨empty⟩

/-- The keys, in order of insertion. -/
def keys (table : Table κ ν) : List κ := table.pairs.map Prod.fst

/-- The number of entries. -/
def size (table : Table κ ν) : Nat := table.pairs.length

/-- Whether the table has no entries. -/
def isEmpty (table : Table κ ν) : Bool := table.pairs.isEmpty

/-- The value of a key. -/
def get? [DecidableEq κ] (table : Table κ ν) (key : κ) : Option ν := valueAt key table.pairs

/-- A table gives a key the value of its only pair. -/
theorem get?_eq_some_iff [DecidableEq κ] {table : Table κ ν} {key : κ} {value : ν} :
    table.get? key = some value ↔ (key, value) ∈ table.pairs :=
  valueAt_eq_some_iff table.distinct

/-- Gives a key a value: a known key keeps its place, a new one comes last. -/
def insert [DecidableEq κ] (table : Table κ ν) (key : κ) (value : ν) : Table κ ν :=
  ⟨place key value table.pairs, nodup_keys_place key value table.distinct⟩

/-- Inserting changes the value of its key and no other. -/
theorem get?_insert [DecidableEq κ] (table : Table κ ν) (key other : κ) (value : ν) :
    (table.insert key value).get? other = if other = key then some value else table.get? other :=
  valueAt_place key other value table.pairs

/-- Inserts pairs one by one, so each key keeps its first place and takes its last value. -/
def ofPairs [DecidableEq κ] (pairs : List (κ × ν)) : Table κ ν :=
  pairs.foldl (fun table pair => table.insert pair.1 pair.2) empty

/-- Adds a key that the table does not have, as its last entry. -/
def push (table : Table κ ν) (key : κ) (value : ν) (new : key ∉ table.keys) : Table κ ν where
  pairs := table.pairs ++ [(key, value)]
  distinct := by
    rw [List.map_append, List.nodup_append]
    refine ⟨table.distinct, by simp, fun old oldKey last lastKey => ?_⟩
    obtain rfl : last = key := by simpa using lastKey
    exact fun same => new (same ▸ oldKey)

/-- The table with other keys and values, where distinct keys stay distinct. -/
def relabel {κ' ν' : Type} (onKey : κ → κ') (onValue : ν → ν')
    (injective : Function.Injective onKey) (table : Table κ ν) : Table κ' ν' where
  pairs := table.pairs.map (Prod.map onKey onValue)
  distinct := by
    have keys : (table.pairs.map (Prod.map onKey onValue)).map Prod.fst =
        (table.pairs.map Prod.fst).map onKey := by
      simp only [List.map_map]
      rfl
    rw [keys]
    exact List.Pairwise.map onKey (fun _ _ different same => different (injective same))
      table.distinct

/-- Whether two tables hold the same pairs, whatever their order. -/
def same [DecidableEq κ] [DecidableEq ν] (left right : Table κ ν) : Bool :=
  left.size == right.size &&
    left.pairs.all fun pair => right.get? pair.1 == some pair.2

end Table

end Mixin
