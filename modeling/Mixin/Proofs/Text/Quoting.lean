/-
**A quoted character can be read off the end of a message.**

Between single quote marks a character stands as itself, behind a backslash under a short name, or as
its code point in braces.  The three forms have different lengths, and within one form the character
is told by its name or its digits; and a mark can only be the last character of any form, so that none
but the opening mark is taken for it.  A message that ends in a quotation therefore gives both the text
before it and the character.

* `digits_injective` — a number is determined by its hexadecimal digits.
* `quoteChar_cases` — the three forms.
* `quoteChar_injective`, `mark_not_mem_dropLast` — the character and the place of the mark.
* **`append_quotedChar_inj`** — the text before the quotation, and what is quoted.
-/

import Mixin.Text.Quoted

namespace Mixin.Text

/-! ### Digits -/

section Digits

theorem digitChar_inj {left right : Nat} (low : left < 16) (otherLow : right < 16)
    (same : Nat.digitChar left = Nat.digitChar right) : left = right := by
  have table : ∀ i < 16, ∀ j < 16, Nat.digitChar i = Nat.digitChar j → i = j := by decide
  exact table left low right otherLow same

/-- **A number is determined by its hexadecimal digits.** -/
theorem digits_injective : Function.Injective (digits 16) := by
  intro left
  unfold digits
  induction left using Nat.strongRecOn with
  | ind left ih =>
    intro right same
    rw [Nat.toDigits_eq_if (by decide), Nat.toDigits_eq_if (b := 16) (n := right) (by decide)] at same
    split at same <;> split at same
    case isTrue.isTrue low otherLow => exact digitChar_inj low otherLow (List.singleton_inj.mp same)
    case isFalse.isFalse high otherHigh =>
      -- The last digit is the remainder, and the others are those of the quotient.
      obtain ⟨front, last⟩ := List.append_inj' same rfl
      have quotient : left / 16 = right / 16 := ih _ (by omega) front
      have remainder : left % 16 = right % 16 :=
        digitChar_inj (by omega) (by omega) (List.singleton_inj.mp last)
      omega
    all_goals
      have length := congrArg List.length same
      have digit : 0 < (Nat.toDigits 16 (left / 16)).length := Nat.length_toDigits_pos
      have otherDigit : 0 < (Nat.toDigits 16 (right / 16)).length := Nat.length_toDigits_pos
      simp only [List.length_append, List.length_singleton] at length
      omega

/-- No digit is a quote mark. -/
theorem mark_not_mem_digits (number : Nat) : '\x27' ∉ digits 16 number := by
  unfold digits
  induction number using Nat.strongRecOn with
  | ind number ih =>
    have other : ∀ value : Nat, '\x27' ≠ value.digitChar := fun value =>
      (Nat.digitChar_ne '\x27' (by decide)).symm
    rw [Nat.toDigits_eq_if (by decide)]
    split
    · rw [List.mem_singleton]
      exact other number
    · rw [List.mem_append, List.mem_singleton, not_or]
      exact ⟨ih (number / 16) (by omega), other _⟩

end Digits

/-! ### One character -/

section Characters

/-- The characters that have a short name between single quote marks, and their names. -/
def shortNames : List (Char × Char) :=
  [('\x27', '\x27'), ('\\', '\\'), ('\x00', '0'), ('\t', 't'), ('\n', 'n'), ('\r', 'r')]

/-- A character is quoted by its short name, as itself, or by its code point. -/
theorem quoteChar_cases (c : Char) :
    (∃ name, (c, name) ∈ shortNames ∧ quoteChar '\x27' c = ['\\', name]) ∨
      quoteChar '\x27' c = [c] ∨
      quoteChar '\x27' c = ['\\', 'u', '{'] ++ digits 16 c.toNat ++ ['}'] := by
  unfold quoteChar
  split
  · rename_i mark
    exact .inl ⟨'\x27', by rw [mark]; decide, by rw [mark]⟩
  · split
    case h_6 =>
      split
      · exact .inr (.inl rfl)
      · exact .inr (.inr rfl)
    all_goals exact .inl ⟨_, by decide, rfl⟩

theorem quoteChar_ne_nil (c : Char) : quoteChar '\x27' c ≠ [] := by
  rcases quoteChar_cases c with ⟨name, _, short⟩ | plain | numeric
  · simp [short]
  · simp [plain]
  · simp [numeric]

/-- **A mark inside a quotation is its last character.** -/
theorem mark_not_mem_dropLast (c : Char) : '\x27' ∉ (quoteChar '\x27' c).dropLast := by
  rcases quoteChar_cases c with ⟨name, _, short⟩ | plain | numeric
  · simp [short]
  · simp [plain]
  · rw [numeric, List.dropLast_concat]
    simpa using mark_not_mem_digits c.toNat

/-- **The quotation of a character determines it.** -/
theorem quoteChar_injective : Function.Injective (quoteChar '\x27') := by
  intro c d same
  have length := congrArg List.length same
  rcases quoteChar_cases c with ⟨name, listed, short⟩ | plain | numeric <;>
    rcases quoteChar_cases d with ⟨otherName, otherListed, otherShort⟩ | otherPlain | otherNumeric
  · have names : name = otherName := by simpa [short, otherShort] using same
    have table : ∀ entry ∈ shortNames, ∀ other ∈ shortNames,
        entry.2 = other.2 → entry.1 = other.1 := by decide
    exact table _ listed _ otherListed names
  · simp [short, otherPlain] at length
  · simp [short, otherNumeric] at length
  · simp [plain, otherShort] at length
  · simpa [plain, otherPlain] using same
  · simp [plain, otherNumeric] at length
  · simp [numeric, otherShort] at length
  · simp [numeric, otherPlain] at length
  · have codes : digits 16 c.toNat = digits 16 d.toNat := by simpa [numeric, otherNumeric] using same
    exact Char.toNat_inj.mp (digits_injective codes)

end Characters

/-! ### A quotation at the end of a text -/

section Endings

variable {left right : List Char} {c d : Char}

/-- Behind an opening mark, one quotation is not the end of a longer one. -/
theorem between_eq_nil {between : List Char}
    (front : right ++ ['\x27'] = left ++ ['\x27'] ++ between)
    (longer : quoteChar '\x27' c = between ++ quoteChar '\x27' d) : between = [] := by
  rcases List.eq_nil_or_concat between with none | ⟨before, last, rfl⟩
  · exact none
  · -- What stands between ends in the second opening mark, which is then inside the first quotation.
    exfalso
    rw [List.concat_eq_append] at front longer
    have mark : '\x27' = last := by
      rw [← List.append_assoc] at front
      exact List.singleton_inj.mp (List.append_inj' front rfl).2
    refine mark_not_mem_dropLast c ?_
    rw [longer, ← mark, List.append_assoc, List.singleton_append,
      List.dropLast_append_of_ne_nil (by simp), List.dropLast_cons_of_ne_nil (quoteChar_ne_nil d)]
    simp

/-- **A quotation is found again at the end of a text**, and so is the text before it. -/
theorem append_quotedChar_inj {text other : String}
    (same : text ++ quotedChar c = other ++ quotedChar d) : text = other ∧ c = d := by
  have letters : text.toList ++ ['\x27'] ++ quoteChar '\x27' c =
      other.toList ++ ['\x27'] ++ quoteChar '\x27' d := by
    have whole := congrArg String.toList same
    simp only [quotedChar, quoted, String.toList_append, String.toList_ofList, List.flatMap_singleton,
      ← List.append_assoc] at whole
    simpa using List.append_cancel_right whole
  suffices quotation : quoteChar '\x27' c = quoteChar '\x27' d by
    rw [quotation] at letters
    exact ⟨String.toList_inj.mp (List.append_cancel_right (List.append_cancel_right letters)),
      quoteChar_injective quotation⟩
  rcases List.append_eq_append_iff.mp letters with
    ⟨between, front, longer⟩ | ⟨between, front, longer⟩
  · simpa [between_eq_nil front longer] using longer
  · simpa [between_eq_nil front longer] using longer.symm

end Endings

end Mixin.Text
