/-
**Computations that may fail.**

What the readers, the loaders and the host have in common: each is put together from steps that give a
value or an error.  A result of the whole comes from a result of each step (`bind_eq_ok`), and a result
that is seen through a view is there (`exists_ok_of_seen`).
-/

namespace Mixin

variable {ε α β : Type}

/-- A computation in two steps has a result when the first step has one and the second goes on from it
to the end. -/
theorem bind_eq_ok {first : Except ε α} {next : α → Except ε β} {result : β}
    (done : (first >>= next) = .ok result) : ∃ found, first = .ok found ∧ next found = .ok result := by
  cases first with
  | error fault => cases done
  | ok found => exact ⟨found, rfl, done⟩

/-- A computation has a result if something is seen of it. -/
theorem exists_ok_of_seen {result : Except ε α} {view : α → β} {seen : β}
    (shown : result.toOption.map view = some seen) :
    ∃ value, result = .ok value ∧ view value = seen := by
  cases result with
  | error error => cases shown
  | ok value => exact ⟨value, rfl, Option.some.inj shown⟩

end Mixin
