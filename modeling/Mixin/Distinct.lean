/-
**First occurrences.**

`freshBy key seen items` keeps, in order, the items whose key is neither in `seen` nor the key of an
earlier item; `repeatsBy key seen items` is the rest, in order.  Between them nothing is lost
(`length_freshBy_add_length_repeatsBy`).
-/

namespace Mixin

variable {α κ : Type} [DecidableEq κ]

/-- The items whose key is new: not in `seen`, and not the key of an earlier item. -/
def freshBy (key : α → κ) : List κ → List α → List α
  | _, [] => []
  | seen, item :: rest =>
    if key item ∈ seen then freshBy key seen rest
    else item :: freshBy key (key item :: seen) rest

/-- The items whose key is in `seen` or is the key of an earlier item. -/
def repeatsBy (key : α → κ) : List κ → List α → List α
  | _, [] => []
  | seen, item :: rest =>
    if key item ∈ seen then item :: repeatsBy key seen rest
    else repeatsBy key (key item :: seen) rest

/-- A key of a fresh item was not seen before. -/
theorem not_mem_of_mem_freshBy {key : α → κ} {seen : List κ} {items : List α} {item : α}
    (fresh : item ∈ freshBy key seen items) : key item ∉ seen := by
  induction items generalizing seen with
  | nil => simp [freshBy] at fresh
  | cons first rest ih =>
    rw [freshBy] at fresh
    split at fresh
    · exact ih fresh
    · rename_i unseen
      rcases List.mem_cons.mp fresh with rfl | later
      · exact unseen
      · exact fun old => ih later (List.mem_cons_of_mem _ old)

/-- The keys of the fresh items are the keys that were not seen before. -/
theorem mem_map_freshBy_iff {key : α → κ} {seen : List κ} {items : List α} {wanted : κ} :
    wanted ∈ (freshBy key seen items).map key ↔ wanted ∉ seen ∧ wanted ∈ items.map key := by
  induction items generalizing seen with
  | nil => simp [freshBy]
  | cons first rest ih =>
    rw [freshBy]
    split
    · rename_i old
      rw [ih, List.map_cons, List.mem_cons]
      refine ⟨fun found => ⟨found.1, .inr found.2⟩, fun found => ⟨found.1, ?_⟩⟩
      exact found.2.resolve_left fun same => found.1 (same ▸ old)
    · rename_i new
      rw [List.map_cons, List.map_cons, List.mem_cons, List.mem_cons, ih, List.mem_cons]
      by_cases same : wanted = key first
      · simp only [same, true_or, new, not_false_eq_true, and_self]
      · simp only [same, false_or]

/-- A fresh item is the first of all items with its key. -/
theorem find?_of_mem_freshBy {key : α → κ} {seen : List κ} {items : List α} {item : α}
    (fresh : item ∈ freshBy key seen items) :
    items.find? (fun other => decide (key other = key item)) = some item := by
  induction items generalizing seen with
  | nil => simp [freshBy] at fresh
  | cons first rest ih =>
    have unseen := not_mem_of_mem_freshBy fresh
    rw [freshBy] at fresh
    split at fresh
    · rename_i old
      have different : key first ≠ key item := fun same => unseen (same ▸ old)
      rw [List.find?_cons_of_neg (by simpa using different)]
      exact ih fresh
    · rcases List.mem_cons.mp fresh with rfl | later
      · exact List.find?_cons_of_pos (by simp)
      · have different : key first ≠ key item := fun same =>
          not_mem_of_mem_freshBy later (same ▸ List.mem_cons_self)
        rw [List.find?_cons_of_neg (by simpa using different)]
        exact ih later

/-- Fresh items have distinct keys. -/
theorem nodup_map_freshBy (key : α → κ) (seen : List κ) (items : List α) :
    ((freshBy key seen items).map key).Nodup := by
  induction items generalizing seen with
  | nil => simp [freshBy]
  | cons first rest ih =>
    rw [freshBy]
    split
    · exact ih seen
    · refine List.nodup_cons.mpr ⟨fun again => ?_, ih _⟩
      obtain ⟨item, later, same⟩ := List.mem_map.mp again
      exact not_mem_of_mem_freshBy later (same ▸ List.mem_cons_self)

/-- The keys of the fresh items, in order: the unseen keys, each where it first occurs. -/
theorem map_freshBy (key : α → κ) (seen : List κ) (items : List α) :
    (freshBy key seen items).map key =
      ((items.map key).filter fun k => decide (k ∉ seen)).eraseDups := by
  induction items generalizing seen with
  | nil => rfl
  | cons first rest ih =>
    rw [freshBy, List.map_cons]
    split
    · rename_i old
      rw [ih seen, List.filter_cons_of_neg (by simpa using old)]
    · rename_i new
      -- What is equal to the first key is dropped behind it, as if that key had been seen.
      have dropped : ((rest.map key).filter fun k => decide (k ∉ seen)).filter
          (fun k => !k == key first) =
          (rest.map key).filter fun k => decide (k ∉ key first :: seen) := by
        rw [List.filter_filter]
        refine List.filter_congr fun k _ => ?_
        by_cases same : k = key first
        · simp [same]
        · simp [same]
      rw [List.filter_cons_of_pos (by simpa using new), List.eraseDups_cons, dropped,
        List.map_cons, ih]

/-- Only which keys were seen matters, not their order or number. -/
theorem freshBy_congr {key : α → κ} {seen other : List κ} (same : ∀ k, k ∈ seen ↔ k ∈ other)
    (items : List α) : freshBy key seen items = freshBy key other items := by
  induction items generalizing seen other with
  | nil => rfl
  | cons first rest ih =>
    have sameGrown : ∀ k, k ∈ key first :: seen ↔ k ∈ key first :: other := fun k => by
      rw [List.mem_cons, List.mem_cons, same k]
    simp only [freshBy, same (key first), ih same, ih sameGrown]

/-- What is fresh in two lists is fresh in the first, or in the second once the fresh keys of the
first have been seen. -/
theorem freshBy_append (key : α → κ) (seen : List κ) (items more : List α) :
    freshBy key seen (items ++ more) =
      freshBy key seen items ++ freshBy key (seen ++ (freshBy key seen items).map key) more := by
  induction items generalizing seen with
  | nil => rw [List.nil_append, freshBy, List.nil_append, List.map_nil, List.append_nil]
  | cons first rest ih =>
    rw [List.cons_append, freshBy, freshBy]
    split
    · exact ih seen
    · rw [ih (key first :: seen), List.map_cons]
      have sameSeen : ∀ k, k ∈ key first :: seen ++ (freshBy key (key first :: seen) rest).map key ↔
          k ∈ seen ++ key first :: (freshBy key (key first :: seen) rest).map key := fun k => by
        simp only [List.mem_append, List.mem_cons, List.cons_append, or_left_comm]
      rw [freshBy_congr sameSeen, List.cons_append]

/-- Among items with distinct unseen keys, all are fresh. -/
theorem freshBy_of_nodup {key : α → κ} {seen : List κ} {items : List α}
    (distinct : (items.map key).Nodup) (unseen : ∀ item ∈ items, key item ∉ seen) :
    freshBy key seen items = items := by
  induction items generalizing seen with
  | nil => rfl
  | cons first rest ih =>
    rw [List.map_cons, List.nodup_cons] at distinct
    have later : ∀ item ∈ rest, key item ∉ key first :: seen := by
      intro item member old
      rcases List.mem_cons.mp old with same | before
      · exact distinct.1 (same ▸ List.mem_map_of_mem member)
      · exact unseen item (List.mem_cons_of_mem _ member) before
    rw [freshBy, if_neg (unseen first List.mem_cons_self), ih distinct.2 later]

/-- Every item is either fresh or a repeat. -/
theorem length_freshBy_add_length_repeatsBy (key : α → κ) (seen : List κ) (items : List α) :
    (freshBy key seen items).length + (repeatsBy key seen items).length = items.length := by
  induction items generalizing seen with
  | nil => rfl
  | cons first rest ih =>
    rw [freshBy, repeatsBy]
    split
    · have := ih seen
      simp only [List.length_cons]
      omega
    · have := ih (key first :: seen)
      simp only [List.length_cons]
      omega

/-- Where all are fresh there are no repeats. -/
theorem repeatsBy_of_freshBy {key : α → κ} {seen : List κ} {items : List α}
    (fresh : freshBy key seen items = items) : repeatsBy key seen items = [] := by
  have lengths := length_freshBy_add_length_repeatsBy key seen items
  rw [fresh] at lengths
  exact List.length_eq_zero_iff.mp (by omega)

end Mixin
