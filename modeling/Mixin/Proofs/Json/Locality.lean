/-
**Reading is local.**

What a reader gives is settled by the characters that it takes and, at most, by a look at the next
one: the same characters in front of another text give the same value and leave that text.  Only the
end of a numeral is found by looking; whatever ends in a bracket or a quote mark is read without.

* `Peeking read`, `Delimited read` — the two kinds of locality.
* **`delimited_readString`**, `delimited_skimString` — strings, read and skimmed.
-/

import Mixin.Json.Skim
import Mixin.Proofs.Computation
import Mixin.Proofs.Json.Spacing

namespace Mixin.Json

open Text (dropJsonBlank isJsonBlank)

variable {ρ α : Type}

/-! ### Two kinds of locality -/

section Notions

/-- What a reader takes gives the same value in front of any text that begins like the text it was
taken from. -/
def Peeking (read : Reader ρ α) : Prop :=
  ∀ ⦃text : List Char⦄ ⦃value : α⦄ ⦃rest : List Char⦄, read text = .ok (value, rest) →
    ∃ taken, text = taken ++ rest ∧
      ∀ after, after.head? = rest.head? → read (taken ++ after) = .ok (value, after)

/-- What a reader takes gives the same value in front of any text. -/
def Delimited (read : Reader ρ α) : Prop :=
  ∀ ⦃text : List Char⦄ ⦃value : α⦄ ⦃rest : List Char⦄, read text = .ok (value, rest) →
    ∃ taken, taken ≠ [] ∧ text = taken ++ rest ∧ ∀ after, read (taken ++ after) = .ok (value, after)

theorem Delimited.peeking {read : Reader ρ α} (delimited : Delimited read) : Peeking read := by
  intro text value rest done
  obtain ⟨taken, _, split, always⟩ := delimited done
  exact ⟨taken, split, fun after _ => always after⟩

/-- A reader takes something whenever it succeeds. -/
def Advances (read : Reader ρ α) : Prop :=
  ∀ ⦃text : List Char⦄ ⦃value : α⦄ ⦃rest : List Char⦄, read text = .ok (value, rest) →
    rest.length < text.length

theorem Delimited.advances {read : Reader ρ α} (delimited : Delimited read) : Advances read := by
  intro text value rest done
  obtain ⟨taken, some, rfl, _⟩ := delimited done
  have := List.length_pos_iff.mpr some
  rw [List.length_append]
  omega

theorem head?_append_congr {left right : List Char} (taken : List Char)
    (alike : left.head? = right.head?) : (taken ++ left).head? = (taken ++ right).head? := by
  rw [List.head?_append, List.head?_append, alike]

theorem head?_append_of_ne_nil {taken : List Char} (some : taken ≠ []) (left right : List Char) :
    (taken ++ left).head? = (taken ++ right).head? := by
  cases taken with
  | nil => exact absurd rfl some
  | cons c others => rfl

end Notions

/-! ### Strings -/

section Strings

theorem delimited_readQuad : Delimited (readQuad : Reader ρ Nat) := by
  intro text value rest done
  unfold readQuad at done
  split at done
  · rename_i found quad
    cases done
    unfold hexQuad? at quad
    split at quad
    · rename_i a b c d digits
      simp only [Option.bind_eq_bind, Option.bind_eq_some_iff, Option.some.injEq, Prod.mk.injEq] at quad
      obtain ⟨high, isHigh, second, isSecond, third, isThird, low, isLow, rfl, rfl⟩ := quad
      refine ⟨[a, b, c, d], List.cons_ne_nil _ _, rfl, fun after => ?_⟩
      unfold readQuad hexQuad?
      simp only [List.cons_append, List.nil_append, isHigh, isSecond, isThird, isLow,
        Option.bind_eq_bind, Option.bind_some]
    · cases quad
  · split at done <;> cases done

theorem delimited_readTrailing (leading : Nat) :
    Delimited (readTrailing leading : Reader ρ Char) := by
  intro text value rest done
  unfold readTrailing at done
  split at done
  · cases done
  · split at done
    · cases done
    · obtain ⟨⟨code, middle⟩, quad, checked⟩ := bind_eq_ok done
      obtain ⟨taken, _, rfl, always⟩ := delimited_readQuad quad
      dsimp only at checked
      split at checked
      · rename_i trailing
        obtain ⟨rfl, rfl⟩ := Prod.mk.inj (Except.ok.inj checked)
        refine ⟨'\\' :: 'u' :: taken, List.cons_ne_nil _ _, rfl, fun after => ?_⟩
        rw [List.cons_append, List.cons_append, readTrailing, always]
        exact if_pos trailing
      · cases checked
    · cases done
  · cases done

theorem delimited_readNumeric : Delimited (readNumeric : Reader ρ Char) := by
  intro text value rest done
  obtain ⟨⟨code, middle⟩, quad, checked⟩ := bind_eq_ok done
  obtain ⟨taken, some, rfl, always⟩ := delimited_readQuad quad
  dsimp only at checked
  split at checked
  · cases checked
  · rename_i notTrailing
    split at checked
    · rename_i leading
      obtain ⟨pair, _, rfl, alwaysPair⟩ := delimited_readTrailing code checked
      refine ⟨taken ++ pair, by simp [some], by simp, fun after => ?_⟩
      rw [List.append_assoc, readNumeric, always]
      show (if isTrailing code = true then _ else if isLeading code = true then _ else _) = _
      rw [if_neg notTrailing, if_pos leading, alwaysPair]
    · rename_i notLeading
      cases checked
      refine ⟨taken, some, rfl, fun after => ?_⟩
      rw [readNumeric, always]
      show (if isTrailing code = true then _ else if isLeading code = true then _ else _) = _
      rw [if_neg notTrailing, if_neg notLeading]

theorem delimited_readEscape : Delimited (readEscape : Reader ρ Char) := by
  intro text value rest done
  cases text with
  | nil => cases done
  | cons letter middle =>
    rw [readEscape] at done
    split at done
    · rename_i numeric
      obtain ⟨taken, _, rfl, always⟩ := delimited_readNumeric done
      refine ⟨letter :: taken, List.cons_ne_nil _ _, rfl, fun after => ?_⟩
      rw [List.cons_append, readEscape, if_pos numeric, always]
    · rename_i notNumeric
      split at done
      · rename_i short
        cases done
        refine ⟨[letter], List.cons_ne_nil _ _, rfl, fun after => ?_⟩
        rw [List.singleton_append, readEscape, if_neg notNumeric, short]
      · cases done

/-- A string is read in as many steps as it takes characters. -/
theorem readChars_again (steps : Nat) :
    ∀ {text chars rest : List Char}, readChars steps text = (.ok (chars, rest) : Except (Fault ρ) _) →
      ∃ taken, taken ≠ [] ∧ text = taken ++ rest ∧ ∀ size after, taken.length ≤ size →
        readChars size (taken ++ after) = (.ok (chars, after) : Except (Fault ρ) _) := by
  induction steps with
  | zero =>
    intro text chars rest done
    cases done
  | succ steps ih =>
    intro text chars rest done
    cases text with
    | nil => cases done
    | cons c middle =>
      rw [readChars] at done
      split at done
      · rename_i quote
        cases done
        refine ⟨[c], List.cons_ne_nil _ _, rfl, fun size after enough => ?_⟩
        obtain ⟨size, rfl⟩ := Nat.exists_eq_add_of_le' enough
        exact if_pos quote
      · rename_i notQuote
        split at done
        · rename_i backslash
          obtain ⟨⟨first, behind⟩, escape, followed⟩ := bind_eq_ok done
          obtain ⟨⟨others, final⟩, more, same⟩ := bind_eq_ok followed
          cases same
          obtain ⟨front, _, rfl, alwaysFront⟩ := delimited_readEscape escape
          obtain ⟨back, _, rfl, alwaysBack⟩ := ih more
          refine ⟨c :: (front ++ back), List.cons_ne_nil _ _, by simp, fun size after enough => ?_⟩
          obtain ⟨size, rfl⟩ := Nat.exists_eq_add_of_le' (Nat.le_of_add_left_le enough)
          have enoughBack : back.length ≤ size := by
            simp only [List.length_cons, List.length_append] at enough
            omega
          rw [List.cons_append, List.append_assoc, readChars, if_neg notQuote, if_pos backslash,
            alwaysFront]
          show (readChars size (back ++ after) >>= _) = _
          rw [alwaysBack size after enoughBack]
          rfl
        · rename_i notBackslash
          split at done
          · cases done
          · rename_i notControl
            obtain ⟨⟨others, final⟩, more, same⟩ := bind_eq_ok done
            cases same
            obtain ⟨back, _, rfl, alwaysBack⟩ := ih more
            refine ⟨c :: back, List.cons_ne_nil _ _, rfl, fun size after enough => ?_⟩
            obtain ⟨size, rfl⟩ := Nat.exists_eq_add_of_le' (Nat.le_of_add_left_le enough)
            rw [List.cons_append, readChars, if_neg notQuote, if_neg notBackslash, if_neg notControl,
              alwaysBack size after (Nat.le_of_succ_le_succ enough)]
            rfl

/-- **Strings are local.** -/
theorem delimited_readString : Delimited (readString : Reader ρ String) := by
  intro text value rest done
  obtain ⟨⟨chars, final⟩, read, same⟩ := bind_eq_ok done
  cases same
  obtain ⟨taken, some, rfl, always⟩ := readChars_again _ read
  refine ⟨taken, some, rfl, fun after => ?_⟩
  rw [readString, always _ after (by rw [List.length_append]; omega)]
  rfl

theorem delimited_skimEscape : Delimited (skimEscape : Reader ρ Unit) := by
  intro text value rest done
  cases text with
  | nil => cases done
  | cons letter middle =>
    rw [skimEscape] at done
    split at done
    · rename_i numeric
      obtain ⟨⟨code, final⟩, quad, same⟩ := bind_eq_ok done
      cases same
      obtain ⟨taken, _, rfl, always⟩ := delimited_readQuad quad
      refine ⟨letter :: taken, List.cons_ne_nil _ _, rfl, fun after => ?_⟩
      rw [List.cons_append, skimEscape, if_pos numeric, always]
      rfl
    · rename_i notNumeric
      split at done
      · rename_i short
        cases done
        refine ⟨[letter], List.cons_ne_nil _ _, rfl, fun after => ?_⟩
        rw [List.singleton_append, skimEscape, if_neg notNumeric, short]
      · cases done

/-- So is skimming a string. -/
theorem skimChars_again (steps : Nat) :
    ∀ {text rest : List Char}, skimChars steps text = (.ok ((), rest) : Except (Fault ρ) _) →
      ∃ taken, taken ≠ [] ∧ text = taken ++ rest ∧ ∀ size after, taken.length ≤ size →
        skimChars size (taken ++ after) = (.ok ((), after) : Except (Fault ρ) _) := by
  induction steps with
  | zero =>
    intro text rest done
    cases done
  | succ steps ih =>
    intro text rest done
    cases text with
    | nil => cases done
    | cons c middle =>
      rw [skimChars] at done
      split at done
      · rename_i quote
        cases done
        refine ⟨[c], List.cons_ne_nil _ _, rfl, fun size after enough => ?_⟩
        obtain ⟨size, rfl⟩ := Nat.exists_eq_add_of_le' enough
        exact if_pos quote
      · rename_i notQuote
        split at done
        · rename_i backslash
          obtain ⟨⟨_, behind⟩, escape, more⟩ := bind_eq_ok done
          obtain ⟨front, _, rfl, alwaysFront⟩ := delimited_skimEscape escape
          obtain ⟨back, _, rfl, alwaysBack⟩ := ih more
          refine ⟨c :: (front ++ back), List.cons_ne_nil _ _, by simp, fun size after enough => ?_⟩
          obtain ⟨size, rfl⟩ := Nat.exists_eq_add_of_le' (Nat.le_of_add_left_le enough)
          have enoughBack : back.length ≤ size := by
            simp only [List.length_cons, List.length_append] at enough
            omega
          rw [List.cons_append, List.append_assoc, skimChars, if_neg notQuote, if_pos backslash,
            alwaysFront]
          exact alwaysBack size after enoughBack
        · rename_i notBackslash
          split at done
          · cases done
          · rename_i notControl
            obtain ⟨back, _, rfl, alwaysBack⟩ := ih done
            refine ⟨c :: back, List.cons_ne_nil _ _, rfl, fun size after enough => ?_⟩
            obtain ⟨size, rfl⟩ := Nat.exists_eq_add_of_le' (Nat.le_of_add_left_le enough)
            rw [List.cons_append, skimChars, if_neg notQuote, if_neg notBackslash, if_neg notControl,
              alwaysBack size after (Nat.le_of_succ_le_succ enough)]

theorem delimited_skimString : Delimited (skimString : Reader ρ Unit) := by
  intro text value rest done
  obtain ⟨taken, some, rfl, always⟩ := skimChars_again _ done
  refine ⟨taken, some, rfl, fun after => ?_⟩
  exact always _ after (by rw [List.length_append]; omega)

end Strings

end Mixin.Json
