/-
**Values are local.**

The punctuation of arrays and objects is delimited: commas, colons and brackets are told by sight.  An
array or an object takes at least a character for each step that its reader makes, so reading it again
in front of another text needs no more steps than it took characters.

* `readOpening_again`, `local_of_opening` — how a value begins, and a reader that looks at this first.
* `delimited_readItems`, `delimited_readMembers` — arrays and objects of anything local.
* **`local_readValue`** — whole values.
-/

import Mixin.Proofs.Json.NumeralLocality
import Mixin.Proofs.Json.Reading

namespace Mixin.Json

open Text (dropJsonBlank isJsonBlank)

variable {ρ α σ : Type}

/-! ### Openings -/

section Openings

/-- The text after the beginning of a value. -/
def Opening.rest : Opening → List Char
  | scalar _ rest => rest
  | list rest => rest
  | object rest => rest

/-- The same beginning of a value in front of another text. -/
def Opening.before (after : List Char) : Opening → Opening
  | scalar value _ => scalar value after
  | list _ => list after
  | object _ => object after

/-- What is left when blanks are dropped begins with no blank. -/
theorem exists_blanks {text rest : List Char} {c : Char} (dropped : dropJsonBlank text = c :: rest) :
    ∃ blanks, Blanks blanks ∧ isJsonBlank c = false ∧ text = blanks ++ c :: rest := by
  refine ⟨text.takeWhile isJsonBlank, List.all_eq_true.mp List.all_takeWhile, ?_, ?_⟩
  · have := List.head?_dropWhile_not isJsonBlank text
    rw [show text.dropWhile isJsonBlank = c :: rest from dropped] at this
    simpa using this
  · rw [← dropped]
    exact List.takeWhile_append_dropWhile.symm

/-- Blanks and the first character after them are found again. -/
theorem dropJsonBlank_again {text rest : List Char} {c : Char}
    (dropped : dropJsonBlank text = c :: rest) :
    ∃ blanks, text = blanks ++ c :: rest ∧
      ∀ after, dropJsonBlank (blanks ++ c :: after) = c :: after := by
  obtain ⟨blanks, blank, solid, split⟩ := exists_blanks dropped
  refine ⟨blanks, split, fun after => ?_⟩
  rw [dropJsonBlank_of_blanks blank, dropJsonBlank_of_solid solid]

theorem readWord_again {word text rest : List Char}
    (done : readWord word text = (.ok ((), rest) : Except (Fault ρ) _)) :
    text = word ++ rest ∧
      ∀ after, readWord word (word ++ after) = (.ok ((), after) : Except (Fault ρ) _) := by
  induction word generalizing text with
  | nil =>
    cases done
    exact ⟨rfl, fun _ => rfl⟩
  | cons expected others ih =>
    cases text with
    | nil => cases done
    | cons c middle =>
      rw [readWord] at done
      split at done
      · rename_i same
        obtain ⟨rfl, always⟩ := ih done
        exact ⟨by rw [same, List.cons_append], fun after => by
          rw [List.cons_append, readWord, if_pos rfl, always]⟩
      · cases done

theorem peeking_readWord (word : List Char) : Peeking (readWord word : Reader ρ Unit) := by
  intro text value rest done
  obtain ⟨split, always⟩ := readWord_again done
  exact ⟨word, split, fun after _ => always after⟩

/-- A scalar that its first character tells and a local reader reads. -/
theorem opening_again {read : Reader ρ α} (value : α → Json) {c : Char} {middle : List Char}
    {opening : Opening} (peeking : Peeking read)
    (reads : ∀ text, (readOpening (c :: text) : Except (Fault ρ) _) =
      read text >>= fun found => .ok (.scalar (value found.1) found.2))
    (opened : readOpening (c :: middle) = (.ok opening : Except (Fault ρ) _)) :
    ∃ taken, taken ≠ [] ∧ c :: middle = taken ++ opening.rest ∧
      ∀ after, after.head? = opening.rest.head? →
        readOpening (taken ++ after) = (.ok (opening.before after) : Except (Fault ρ) _) := by
  rw [reads] at opened
  obtain ⟨⟨found, rest⟩, done, same⟩ := bind_eq_ok opened
  cases same
  obtain ⟨taken, rfl, always⟩ := peeking done
  refine ⟨c :: taken, List.cons_ne_nil _ _, rfl, fun after alike => ?_⟩
  rw [List.cons_append, reads, always after alike]
  rfl

/-- A value begins after blanks as it does without them. -/
theorem readOpening_blanks {blanks : List Char} (blank : Blanks blanks) (text : List Char) :
    (readOpening (blanks ++ text) : Except (Fault ρ) _) = readOpening text := by
  unfold readOpening
  rw [dropJsonBlank_of_blanks blank]

/-- **How a value begins** is settled by what is taken and a look at the next character. -/
theorem readOpening_again {text : List Char} {opening : Opening}
    (opened : readOpening text = (.ok opening : Except (Fault ρ) _)) :
    ∃ taken, taken ≠ [] ∧ text = taken ++ opening.rest ∧
      ∀ after, after.head? = opening.rest.head? →
        readOpening (taken ++ after) = (.ok (opening.before after) : Except (Fault ρ) _) := by
  cases dropped : dropJsonBlank text with
  | nil =>
    unfold readOpening at opened
    rw [dropped] at opened
    cases opened
  | cons c middle =>
    obtain ⟨blanks, blank, solid, rfl⟩ := exists_blanks dropped
    rw [readOpening_blanks blank] at opened
    -- It is enough to begin with the first character that is no blank.
    suffices ∃ taken, taken ≠ [] ∧ c :: middle = taken ++ opening.rest ∧
        ∀ after, after.head? = opening.rest.head? →
          readOpening (taken ++ after) = (.ok (opening.before after) : Except (Fault ρ) _) by
      obtain ⟨taken, some, split, always⟩ := this
      refine ⟨blanks ++ taken, by simp [some], by rw [split, List.append_assoc], fun after alike => ?_⟩
      rw [List.append_assoc, readOpening_blanks blank, always after alike]
    have whole := opened
    unfold readOpening at opened
    rw [dropJsonBlank_of_solid solid] at opened
    dsimp only at opened
    split at opened
    · rename_i first
      subst first
      exact opening_again (fun _ => null) (peeking_readWord ['u', 'l', 'l']) (fun _ => rfl) whole
    rename_i noNull
    split at opened
    · rename_i first
      subst first
      exact opening_again (fun _ => bool true) (peeking_readWord ['r', 'u', 'e']) (fun _ => rfl) whole
    rename_i noTrue
    split at opened
    · rename_i first
      subst first
      exact opening_again (fun _ => bool false) (peeking_readWord ['a', 'l', 's', 'e']) (fun _ => rfl)
        whole
    rename_i noFalse
    split at opened
    · rename_i first
      subst first
      exact opening_again str delimited_readString.peeking (fun _ => rfl) whole
    rename_i noQuote
    split at opened
    · rename_i first
      subst first
      exact opening_again num (peeking_readNumber true) (fun _ => rfl) whole
    rename_i noMinus
    split at opened
    · rename_i digit
      obtain ⟨⟨number, rest⟩, done, same⟩ := bind_eq_ok opened
      cases same
      have shorter := advances_readNumber false done
      obtain ⟨taken, split, always⟩ := peeking_readNumber false done
      have some : taken ≠ [] := by
        rintro rfl
        rw [split, List.nil_append] at shorter
        omega
      refine ⟨taken, some, split, fun after alike => ?_⟩
      obtain ⟨others, same⟩ : ∃ others, taken ++ after = c :: others := by
        rw [← List.head?_eq_some_iff, head?_append_of_ne_nil some after rest, ← split]
        rfl
      unfold readOpening
      rw [same, dropJsonBlank_of_solid solid]
      dsimp only
      rw [if_neg noNull, if_neg noTrue, if_neg noFalse, if_neg noQuote, if_neg noMinus, if_pos digit,
        ← same, always after alike]
      rfl
    rename_i noDigit
    split at opened
    · rename_i first
      subst first
      cases opened
      exact ⟨['['], List.cons_ne_nil _ _, rfl, fun _ _ => rfl⟩
    rename_i noList
    split at opened
    · rename_i first
      subst first
      cases opened
      exact ⟨['{'], List.cons_ne_nil _ _, rfl, fun _ _ => rfl⟩
    · cases opened

variable {next : Opening → Except (Fault ρ) (α × List Char)}

/-- A reader that goes on from how a value begins is local if what it goes on with is, and it takes
at least the beginning. -/
theorem local_of_opening
    (goes : ∀ opening value rest, next opening = .ok (value, rest) →
      ∃ back, opening.rest = back ++ rest ∧ ∀ after, after.head? = rest.head? →
        next (opening.before (back ++ after)) = .ok (value, after)) :
    Peeking (fun text => readOpening text >>= next) ∧
      Advances (fun text => readOpening text >>= next) := by
  constructor
  all_goals
    intro text value rest done
    obtain ⟨opening, opened, finished⟩ := bind_eq_ok done
    obtain ⟨front, some, split, alwaysFront⟩ := readOpening_again opened
    obtain ⟨back, splitBack, alwaysBack⟩ := goes opening value rest finished
    rw [splitBack] at split alwaysFront
  · refine ⟨front ++ back, by rw [split, List.append_assoc], fun after alike => ?_⟩
    dsimp only
    rw [List.append_assoc, alwaysFront _ (head?_append_congr back alike)]
    exact alwaysBack after alike
  · have := List.length_pos_iff.mpr some
    rw [split]
    simp only [List.length_append]
    omega

/-- It is delimited if what it goes on with is. -/
theorem delimited_of_opening
    (goes : ∀ opening value rest, next opening = .ok (value, rest) →
      ∃ back, back ≠ [] ∧ opening.rest = back ++ rest ∧ ∀ after,
        next (opening.before (back ++ after)) = .ok (value, after)) :
    Delimited (fun text => readOpening text >>= next) := by
  intro text value rest done
  obtain ⟨opening, opened, finished⟩ := bind_eq_ok done
  obtain ⟨front, some, split, alwaysFront⟩ := readOpening_again opened
  obtain ⟨back, someBack, splitBack, alwaysBack⟩ := goes opening value rest finished
  refine ⟨front ++ back, by simp [some], by rw [split, splitBack, List.append_assoc], fun after => ?_⟩
  dsimp only
  rw [List.append_assoc, alwaysFront _ (by rw [splitBack]; exact head?_append_of_ne_nil someBack _ _)]
  exact alwaysBack after

end Openings

/-! ### Arrays -/

section Arrays

theorem nextItem_close_again {first : Bool} {text rest : List Char}
    (closed : nextItem first text = (.ok (.close rest) : Except (Fault ρ) _)) :
    ∃ taken, taken ≠ [] ∧ text = taken ++ rest ∧
      ∀ after, nextItem first (taken ++ after) = (.ok (.close after) : Except (Fault ρ) _) := by
  unfold nextItem at closed
  split at closed
  · cases closed
  · rename_i c middle dropped
    split at closed
    · rename_i bracket
      cases closed
      obtain ⟨blanks, rfl, always⟩ := dropJsonBlank_again dropped
      refine ⟨blanks ++ [c], by simp, by simp, fun after => ?_⟩
      unfold nextItem
      rw [List.append_assoc, List.singleton_append, always]
      exact if_pos bracket
    · split at closed
      · cases closed
      · split at closed
        · split at closed
          · cases closed
          · split at closed <;> cases closed
        · cases closed

/-- The first item may come at once; every other one comes after a comma. -/
theorem nextItem_part_again {first : Bool} {text rest : List Char}
    (found : nextItem first text = (.ok (.part rest) : Except (Fault ρ) _)) :
    ∃ taken, (first = false → taken ≠ []) ∧ text = taken ++ rest ∧
      ∀ after, after.head? = rest.head? →
        nextItem first (taken ++ after) = (.ok (.part after) : Except (Fault ρ) _) := by
  unfold nextItem at found
  split at found
  · cases found
  · rename_i c middle dropped
    split at found
    · cases found
    · rename_i noBracket
      obtain ⟨blanks, rfl, always⟩ := dropJsonBlank_again dropped
      split at found
      · rename_i isFirst
        cases found
        refine ⟨blanks, fun later => ?_, rfl, fun after alike => ?_⟩
        · rw [isFirst] at later
          cases later
        · obtain ⟨others, rfl⟩ := List.head?_eq_some_iff.mp alike
          unfold nextItem
          rw [always]
          dsimp only
          rw [if_neg noBracket, if_pos isFirst]
      · rename_i notFirst
        split at found
        · rename_i comma
          split at found
          · cases found
          · rename_i d behind droppedAgain
            split at found
            · cases found
            · rename_i noEnd
              cases found
              obtain ⟨more, rfl, alwaysMore⟩ := dropJsonBlank_again droppedAgain
              refine ⟨blanks ++ c :: more, fun _ => by simp, by simp, fun after alike => ?_⟩
              obtain ⟨others, rfl⟩ := List.head?_eq_some_iff.mp alike
              unfold nextItem
              rw [List.append_assoc, List.cons_append, always]
              dsimp only
              rw [if_neg noBracket, if_neg notFirst, if_pos comma, alwaysMore]
              dsimp only
              rw [if_neg noEnd]
        · cases found

variable {read : Reader ρ α}

/-- An item with the comma before it is read again. -/
theorem item_again (peeking : Peeking read) {first : Bool} {text behind middle : List Char} {item : α}
    (found : nextItem first text = (.ok (.part behind) : Except (Fault ρ) _))
    (one : read behind = .ok (item, middle)) :
    ∃ taken, text = taken ++ middle ∧ behind.length ≤ text.length ∧
      ∀ after, after.head? = middle.head? → ∃ again,
        nextItem first (taken ++ after) = (.ok (.part again) : Except (Fault ρ) _) ∧
          read again = .ok (item, after) := by
  obtain ⟨lead, _, rfl, alwaysLead⟩ := nextItem_part_again found
  obtain ⟨front, rfl, alwaysFront⟩ := peeking one
  refine ⟨lead ++ front, by simp, by simp, fun after alike => ?_⟩
  refine ⟨front ++ after, ?_, alwaysFront after alike⟩
  rw [List.append_assoc, alwaysLead _ (head?_append_congr front alike)]

/-- The items of an array are read again in as many steps as they took characters. -/
theorem readItemsFrom_again (peeking : Peeking read) (advances : Advances read) (steps : Nat) :
    ∀ {first : Bool} {text rest : List Char} {items : List α},
      readItemsFrom read steps first text = .ok (items, rest) →
      ∃ taken, taken ≠ [] ∧ text = taken ++ rest ∧ ∀ size after, taken.length ≤ size →
        readItemsFrom read size first (taken ++ after) = .ok (items, after) := by
  induction steps with
  | zero =>
    intro first text rest items done
    cases done
  | succ steps ih =>
    intro first text rest items done
    rw [readItemsFrom] at done
    obtain ⟨step, found, finished⟩ := bind_eq_ok done
    cases step with
    | close behind =>
      cases finished
      obtain ⟨taken, some, rfl, always⟩ := nextItem_close_again found
      refine ⟨taken, some, rfl, fun size after enough => ?_⟩
      obtain ⟨size, rfl⟩ :=
        Nat.exists_eq_add_of_le' (Nat.le_trans (List.length_pos_iff.mpr some) enough)
      rw [readItemsFrom, always]
      rfl
    | part behind =>
      obtain ⟨⟨item, middle⟩, one, finished⟩ := bind_eq_ok finished
      obtain ⟨⟨others, final⟩, more, same⟩ := bind_eq_ok finished
      cases same
      have shorter := advances one
      obtain ⟨front, rfl, within, alwaysFront⟩ := item_again peeking found one
      obtain ⟨back, someBack, rfl, alwaysBack⟩ := ih more
      refine ⟨front ++ back, by simp [someBack], by simp, fun size after enough => ?_⟩
      simp only [List.length_append] at enough within shorter
      obtain ⟨size, rfl⟩ := Nat.exists_eq_add_of_le' (show 1 ≤ size by omega)
      obtain ⟨again, part, item⟩ := alwaysFront _ (head?_append_of_ne_nil someBack after rest)
      rw [List.append_assoc, readItemsFrom, part]
      show (read again >>= _) = _
      rw [item]
      show (readItemsFrom read size false (back ++ after) >>= _) = _
      rw [alwaysBack size after (by omega)]
      rfl

/-- **An array is delimited** when its items are local. -/
theorem delimited_readItems (peeking : Peeking read) (advances : Advances read) :
    Delimited (readItems read) := by
  intro text value rest done
  obtain ⟨taken, some, rfl, always⟩ := readItemsFrom_again peeking advances _ done
  exact ⟨taken, some, rfl, fun after => always _ after (by rw [List.length_append]; omega)⟩

theorem delimited_readMoreItems (peeking : Peeking read) (advances : Advances read) :
    Delimited (readMoreItems read) := by
  intro text value rest done
  obtain ⟨taken, some, rfl, always⟩ := readItemsFrom_again peeking advances _ done
  exact ⟨taken, some, rfl, fun after => always _ after (by rw [List.length_append]; omega)⟩

end Arrays

/-! ### Objects -/

section Objects

theorem delimited_readColon : Delimited (readColon : Reader ρ Unit) := by
  intro text value rest done
  unfold readColon at done
  split at done
  · cases done
  · rename_i c middle dropped
    split at done
    · rename_i colon
      cases done
      obtain ⟨blanks, rfl, always⟩ := dropJsonBlank_again dropped
      refine ⟨blanks ++ [c], by simp, by simp, fun after => ?_⟩
      unfold readColon
      rw [List.append_assoc, List.singleton_append, always]
      exact if_pos colon
    · cases done

theorem openKey_eq_ok {text : List Char} {step : Step}
    (opened : openKey text = (.ok step : Except (Fault ρ) _)) :
    ∃ rest, text = '"' :: rest ∧ step = .part rest := by
  unfold openKey at opened
  split at opened
  · cases opened
    exact ⟨_, rfl, rfl⟩
  · cases opened

/-- The text after the next key, or after the end of an object. -/
def Step.rest : Step → List Char
  | close rest => rest
  | part rest => rest

/-- The same find in front of another text. -/
def Step.before (after : List Char) : Step → Step
  | close _ => close after
  | part _ => part after

/-- The end of an object and the quote mark of a key are told by sight. -/
theorem nextKey_again {first : Bool} {text : List Char} {step : Step}
    (found : nextKey first text = (.ok step : Except (Fault ρ) _)) :
    ∃ taken, taken ≠ [] ∧ text = taken ++ step.rest ∧
      ∀ after, nextKey first (taken ++ after) = (.ok (step.before after) : Except (Fault ρ) _) := by
  unfold nextKey at found
  split at found
  · cases found
  · rename_i c middle dropped
    obtain ⟨blanks, rfl, always⟩ := dropJsonBlank_again dropped
    split at found
    · rename_i brace
      cases found
      refine ⟨blanks ++ [c], by simp, by simp [Step.rest], fun after => ?_⟩
      unfold nextKey
      rw [List.append_assoc, List.singleton_append, always]
      exact if_pos brace
    · rename_i noBrace
      split at found
      · rename_i isFirst
        obtain ⟨rest, split, rfl⟩ := openKey_eq_ok found
        cases split
        refine ⟨blanks ++ ['"'], by simp, by simp [Step.rest], fun after => ?_⟩
        unfold nextKey
        rw [List.append_assoc, List.singleton_append, always]
        dsimp only
        rw [if_neg noBrace, if_pos isFirst]
        rfl
      · rename_i notFirst
        split at found
        · rename_i comma
          split at found
          · cases found
          · rename_i d behind droppedAgain
            split at found
            · cases found
            · rename_i noEnd
              obtain ⟨rest, split, rfl⟩ := openKey_eq_ok found
              cases split
              obtain ⟨more, rfl, alwaysMore⟩ := dropJsonBlank_again droppedAgain
              refine ⟨blanks ++ c :: (more ++ ['"']), by simp, by simp [Step.rest], fun after => ?_⟩
              unfold nextKey
              rw [List.append_assoc, List.cons_append, List.append_assoc, List.singleton_append, always]
              dsimp only
              rw [if_neg noBrace, if_neg notFirst, if_pos comma, alwaysMore]
              dsimp only
              rw [if_neg noEnd]
              rfl
        · cases found

variable {field : σ → String → Except (Fault ρ) (Reader ρ σ)}

/-- The members of an object are read again in as many steps as they took characters. -/
theorem readMembersFrom_again
    (peeking : ∀ state key read, field state key = .ok read → Peeking read) (steps : Nat) :
    ∀ {first : Bool} {text rest : List Char} {start finish : σ},
      readMembersFrom field steps first start text = .ok (finish, rest) →
      ∃ taken, taken ≠ [] ∧ text = taken ++ rest ∧ ∀ size after, taken.length ≤ size →
        readMembersFrom field size first start (taken ++ after) = .ok (finish, after) := by
  induction steps with
  | zero =>
    intro first text rest start finish done
    cases done
  | succ steps ih =>
    intro first text rest start finish done
    rw [readMembersFrom] at done
    obtain ⟨step, found, finished⟩ := bind_eq_ok done
    obtain ⟨lead, someLead, rfl, alwaysLead⟩ := nextKey_again found
    have leads := List.length_pos_iff.mpr someLead
    cases step with
    | close behind =>
      cases finished
      refine ⟨lead, someLead, rfl, fun size after enough => ?_⟩
      obtain ⟨size, rfl⟩ := Nat.exists_eq_add_of_le' (Nat.le_trans leads enough)
      rw [readMembersFrom, alwaysLead]
      rfl
    | part behind =>
      obtain ⟨⟨key, afterKey⟩, keyed, finished⟩ := bind_eq_ok finished
      obtain ⟨read, chosen, finished⟩ := bind_eq_ok finished
      obtain ⟨⟨_, afterColon⟩, colon, finished⟩ := bind_eq_ok finished
      obtain ⟨⟨next, afterValue⟩, one, more⟩ := bind_eq_ok finished
      obtain ⟨name, _, rfl, alwaysName⟩ := delimited_readString keyed
      obtain ⟨mark, _, rfl, alwaysMark⟩ := delimited_readColon colon
      obtain ⟨front, rfl, alwaysFront⟩ := peeking start key read chosen one
      obtain ⟨back, someBack, rfl, alwaysBack⟩ := ih more
      refine ⟨lead ++ (name ++ (mark ++ (front ++ back))), by simp [someBack],
        by simp [Step.rest], fun size after enough => ?_⟩
      simp only [List.length_append] at enough
      obtain ⟨size, rfl⟩ := Nat.exists_eq_add_of_le' (show 1 ≤ size by omega)
      simp only [List.append_assoc]
      rw [readMembersFrom, alwaysLead]
      show (readString (name ++ _) >>= _) = _
      rw [alwaysName]
      show (field start key >>= _) = _
      rw [chosen]
      show (readColon (mark ++ _) >>= _) = _
      rw [alwaysMark]
      show (read (front ++ _) >>= _) = _
      rw [alwaysFront _ (head?_append_of_ne_nil someBack after rest)]
      exact alwaysBack size after (by omega)

/-- **An object is delimited** when its members are local. -/
theorem delimited_readMembers
    (peeking : ∀ state key read, field state key = .ok read → Peeking read) (start : σ) :
    Delimited (readMembers field start) := by
  intro text value rest done
  obtain ⟨taken, some, rfl, always⟩ := readMembersFrom_again peeking _ done
  exact ⟨taken, some, rfl, fun after => always _ after (by rw [List.length_append]; omega)⟩

end Objects

/-! ### Values -/

section Values

/-- What a local reader gives may be turned into something else. -/
theorem Peeking.map {β : Type} {read : Reader ρ α} (peeking : Peeking read) (f : α → β) :
    Peeking (fun text => read text >>= fun found => .ok (f found.1, found.2)) := by
  intro text value rest done
  obtain ⟨⟨found, final⟩, one, same⟩ := bind_eq_ok done
  cases same
  obtain ⟨taken, split, always⟩ := peeking one
  refine ⟨taken, split, fun after alike => ?_⟩
  dsimp only
  rw [always after alike]
  rfl

/-- A value is local if its parts are. -/
theorem local_readWith {inner : Option (Reader ρ Json)}
    (parts : ∀ read, inner = some read → Peeking read ∧ Advances read) :
    Peeking (readWith inner) ∧ Advances (readWith inner) := by
  refine local_of_opening fun opening value rest done => ?_
  cases opening with
  | scalar found behind =>
    cases done
    exact ⟨[], rfl, fun _ _ => rfl⟩
  | list behind =>
    cases inner with
    | none => cases done
    | some read =>
      obtain ⟨peeking, advances⟩ := parts read rfl
      obtain ⟨⟨items, final⟩, one, same⟩ := bind_eq_ok done
      cases same
      obtain ⟨back, _, rfl, always⟩ := delimited_readItems peeking advances one
      refine ⟨back, rfl, fun after _ => ?_⟩
      show (readItems read (back ++ after) >>= _) = _
      rw [always]
      rfl
  | object behind =>
    cases inner with
    | none => cases done
    | some read =>
      obtain ⟨peeking, _⟩ := parts read rfl
      obtain ⟨⟨members, final⟩, one, same⟩ := bind_eq_ok done
      cases same
      have each : ∀ (members : List (String × Json)) key reader, readInto read members key = .ok reader →
          Peeking reader := by
        intro members key reader chosen
        cases chosen
        exact peeking.map fun value => members ++ [(key, value)]
      obtain ⟨back, _, rfl, always⟩ := delimited_readMembers each [] one
      refine ⟨back, rfl, fun after _ => ?_⟩
      show (readMembers (readInto read) [] (back ++ after) >>= _) = _
      rw [always]
      rfl

/-- **Values are local.** -/
theorem local_readValue (depth : Nat) :
    Peeking (readValue depth : Reader ρ Json) ∧ Advances (readValue depth : Reader ρ Json) := by
  induction depth with
  | zero => exact local_readWith fun read impossible => nomatch impossible
  | succ depth ih =>
    refine local_readWith fun read same => ?_
    cases same
    exact ih

end Values

end Mixin.Json
