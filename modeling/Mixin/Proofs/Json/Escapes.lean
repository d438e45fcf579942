/-
**Strings are read as they are written.**

Writing escapes a character in one of three ways or not at all; reading undoes each of them in one
step (`readChars_escape`), and so undoes the whole string whatever comes after it
(`readString_escape`).
-/

import Mixin.Json.Printer
import Mixin.Json.Text

namespace Mixin.Json

variable {ρ : Type}

/-! ### One character -/

section Characters

theorem hexValue?_digitChar : ∀ digit < 16, hexValue? (Nat.digitChar digit) = some digit := by
  decide

/-- The four digits of a numeric escape give its code. -/
theorem readQuad_numeric {code : Nat} (low : code < 0x20) (rest : List Char) :
    (readQuad ('0' :: '0' :: Nat.digitChar (code / 16) :: Nat.digitChar (code % 16) :: rest) :
      Except (Fault ρ) (Nat × List Char)) = .ok (code, rest) := by
  have zero : hexValue? '0' = some 0 := by decide
  have high : hexValue? (Nat.digitChar (code / 16)) = some (code / 16) :=
    hexValue?_digitChar _ (by omega)
  have unit : hexValue? (Nat.digitChar (code % 16)) = some (code % 16) :=
    hexValue?_digitChar _ (by omega)
  have sum : ((0 * 16 + 0) * 16 + code / 16) * 16 + code % 16 = code := by omega
  unfold readQuad hexQuad?
  simp only [zero, high, unit, Option.bind_eq_bind, Option.bind_some, sum]

/-- A numeric escape stands for the character with its code. -/
theorem readEscape_numeric {c : Char} (low : c.toNat < 0x20) (rest : List Char) :
    (readEscape ('u' :: '0' :: '0' :: Nat.digitChar (c.toNat / 16) ::
      Nat.digitChar (c.toNat % 16) :: rest) : Except (Fault ρ) (Char × List Char)) =
        .ok (c, rest) := by
  have notTrailing : isTrailing c.toNat = false := by
    simp only [isTrailing, Bool.and_eq_false_iff, decide_eq_false_iff_not]
    omega
  have notLeading : isLeading c.toNat = false := by
    simp only [isLeading, Bool.and_eq_false_iff, decide_eq_false_iff_not]
    omega
  rw [readEscape, if_pos rfl, readNumeric, readQuad_numeric low]
  show (if isTrailing c.toNat = true then _ else if isLeading c.toNat = true then _ else _) = _
  rw [notTrailing, notLeading, if_neg Bool.false_ne_true, if_neg Bool.false_ne_true,
    Char.ofNat_toNat]

/-- **One step of reading undoes the writing of one character.** -/
theorem readChars_escape (c : Char) (steps : Nat) (rest : List Char) :
    (readChars (steps + 1) (escape c ++ rest) : Except (Fault ρ) (List Char × List Char)) =
      readChars steps rest >>= fun read => .ok (c :: read.1, read.2) := by
  unfold escape
  split
  case h_8 notQuote notBackslash _ _ _ _ _ =>
    split
    · rename_i low
      show (readChars (steps + 1) ('\\' :: 'u' :: '0' :: '0' :: Nat.digitChar (c.toNat / 16) ::
        Nat.digitChar (c.toNat % 16) :: rest)) = _
      rw [readChars, if_neg (by decide), if_pos rfl, readEscape_numeric low]
      rfl
    · rename_i high
      have bare : isControl c = false := decide_eq_false high
      show readChars (steps + 1) (c :: rest) = _
      rw [readChars, if_neg notQuote, if_neg notBackslash, bare, if_neg Bool.false_ne_true]
  all_goals rfl

end Characters

/-! ### Whole strings -/

section Strings

/-- Enough steps read all written characters up to the quote mark. -/
theorem readChars_flatMap_escape (chars : List Char) :
    ∀ (steps : Nat) (rest : List Char), chars.length < steps →
      (readChars steps (chars.flatMap escape ++ '"' :: rest) :
        Except (Fault ρ) (List Char × List Char)) = .ok (chars, rest) := by
  induction chars with
  | nil =>
    intro steps rest enough
    obtain ⟨steps, rfl⟩ := Nat.exists_eq_succ_of_ne_zero (Nat.ne_zero_of_lt enough)
    rfl
  | cons c chars ih =>
    intro steps rest enough
    obtain ⟨steps, rfl⟩ := Nat.exists_eq_succ_of_ne_zero (Nat.ne_zero_of_lt enough)
    rw [List.flatMap_cons, List.append_assoc, readChars_escape,
      ih steps rest (Nat.lt_of_succ_lt_succ enough)]
    rfl

theorem length_le_flatMap_escape (chars : List Char) :
    chars.length ≤ (chars.flatMap escape).length := by
  have one : ∀ c, 1 ≤ (escape c).length := by
    intro c
    unfold escape
    split <;> try exact Nat.le_add_left 1 _
    split
    · exact Nat.le_add_left 1 _
    · exact Nat.le_refl 1
  induction chars with
  | nil => exact Nat.zero_le _
  | cons c chars ih =>
    rw [List.flatMap_cons, List.length_append, List.length_cons]
    have := one c
    omega

/-- **Reading a string undoes its writing**, whatever comes after it. -/
theorem readString_escape (text : String) (rest : List Char) :
    (readString (text.toList.flatMap escape ++ '"' :: rest) :
      Except (Fault ρ) (String × List Char)) = .ok (text, rest) := by
  have enough : text.toList.length < (text.toList.flatMap escape ++ '"' :: rest).length := by
    have := length_le_flatMap_escape text.toList
    rw [List.length_append, List.length_cons]
    omega
  unfold readString
  rw [readChars_flatMap_escape text.toList _ rest enough]
  show Except.ok (String.ofList text.toList, rest) = _
  rw [String.ofList_toList]

end Strings

end Mixin.Json
