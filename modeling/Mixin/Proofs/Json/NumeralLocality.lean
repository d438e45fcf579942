/-
**Numerals are local.**

The digits of a numeral are taken up to the first character that is none, so where a numeral ends is
seen by looking at the next character.  Read again in front of a text that begins alike, a numeral
takes the same digits and counts them as before.

* `digits_again` — a run of digits, of which some may not fit.
* **`peeking_readNumber`**, **`peeking_skimNumber`** — whole numerals.
-/

import Mixin.Proofs.Json.Locality

namespace Mixin.Json

variable {ρ : Type}

/-! ### Digits -/

section Numerals

theorem absorb_again {bound number total : Nat} {text rest : List Char}
    (absorbed : absorb bound number text = (total, rest)) :
    ∃ taken, text = taken ++ rest ∧
      ∀ after, after.head? = rest.head? → absorb bound number (taken ++ after) = (total, after) := by
  induction text generalizing number with
  | nil =>
    cases absorbed
    refine ⟨[], rfl, fun after alike => ?_⟩
    obtain rfl := List.head?_eq_none_iff.mp alike
    rfl
  | cons c digits ih =>
    rw [absorb] at absorbed
    split at absorbed
    · rename_i fits
      obtain ⟨taken, split, always⟩ := ih absorbed
      refine ⟨c :: taken, congrArg (c :: ·) split, fun after alike => ?_⟩
      rw [List.cons_append, absorb, if_pos fits, always after alike]
    · rename_i stops
      cases absorbed
      refine ⟨[], rfl, fun after alike => ?_⟩
      obtain ⟨others, rfl⟩ := List.head?_eq_some_iff.mp alike
      rw [List.nil_append, absorb, if_neg stops]

theorem dropDigits_again {text rest : List Char} (dropped : dropDigits text = rest) :
    ∃ taken, text = taken ++ rest ∧
      ∀ after, after.head? = rest.head? → dropDigits (taken ++ after) = after := by
  have digits : ∀ c ∈ text.takeWhile Char.isDigit, c.isDigit = true :=
    List.all_eq_true.mp List.all_takeWhile
  unfold dropDigits at dropped ⊢
  refine ⟨text.takeWhile Char.isDigit, by rw [← dropped, List.takeWhile_append_dropWhile],
    fun after alike => ?_⟩
  rw [List.dropWhile_append_of_pos digits]
  cases after with
  | nil => rfl
  | cons c others =>
    obtain ⟨behind, rfl⟩ := List.head?_eq_some_iff.mp alike.symm
    have notDigit : ¬ c.isDigit = true := by
      have := List.head?_dropWhile_not Char.isDigit text
      rw [dropped] at this
      simpa using this
    exact List.dropWhile_cons_of_neg notDigit

/-- A run of digits: those that are absorbed, and the surplus that is dropped.  Read again it begins
with the same digit. -/
theorem digits_again {bound number total : Nat} {first : Char} {digits middle rest : List Char}
    (digit : first.isDigit = true)
    (absorbed : absorb bound number (first :: digits) = (total, middle))
    (dropped : dropDigits middle = rest) :
    ∃ front surplus, front ++ surplus ≠ [] ∧ first :: digits = front ++ (surplus ++ rest) ∧
      middle = surplus ++ rest ∧
      ∀ after, after.head? = rest.head? →
        ∃ others, front ++ (surplus ++ after) = first :: others ∧
          absorb bound number (first :: others) = (total, surplus ++ after) ∧
          dropDigits (surplus ++ after) = after := by
  obtain ⟨front, split, alwaysFront⟩ := absorb_again absorbed
  obtain ⟨surplus, rfl, alwaysSurplus⟩ := dropDigits_again dropped
  refine ⟨front, surplus, fun none => ?_, split, rfl, fun after alike => ?_⟩
  · -- Were nothing taken, dropping digits would leave the first digit.
    obtain ⟨rfl, rfl⟩ := List.append_eq_nil_iff.mp none
    rw [List.nil_append, List.nil_append] at split
    subst split
    have shorter : (digits.dropWhile Char.isDigit).length ≤ digits.length :=
      (List.dropWhile_suffix _).length_le
    rw [List.nil_append, dropDigits, List.dropWhile_cons_of_pos digit] at dropped
    rw [dropped, List.length_cons] at shorter
    omega
  have alikeSurplus := head?_append_congr surplus alike
  have sameFirst : (front ++ (surplus ++ after)).head? = some first := by
    rw [head?_append_congr front alikeSurplus, ← split]
    rfl
  obtain ⟨others, same⟩ := List.head?_eq_some_iff.mp sameFirst
  exact ⟨others, same, same ▸ alwaysFront _ alikeSurplus, alwaysSurplus after alike⟩

theorem startsWithDigit_congr {left right : List Char} (alike : left.head? = right.head?) :
    startsWithDigit left = startsWithDigit right := by
  cases left with
  | nil =>
    obtain rfl := List.head?_eq_none_iff.mp alike.symm
    rfl
  | cons c others =>
    obtain ⟨behind, rfl⟩ := List.head?_eq_some_iff.mp alike.symm
    rfl

/-- A scaled number takes nothing and looks at nothing. -/
theorem readScaled_again {negative : Bool} {significand : Nat} {exponent : Int} {text rest : List Char}
    {value : Number}
    (done : readScaled negative significand exponent text = (.ok (value, rest) : Except (Fault ρ) _)) :
    rest = text ∧ ∀ after,
      readScaled negative significand exponent after = (.ok (value, after) : Except (Fault ρ) _) := by
  unfold readScaled at done ⊢
  split at done
  · cases done
    exact ⟨rfl, fun _ => rfl⟩
  · cases done

theorem peeking_readPower (negative : Bool) (significand : Nat) (exponent : Int) (raising : Bool) :
    Peeking (readPower negative significand exponent raising : Reader ρ Number) := by
  intro text value rest done
  cases text with
  | nil => cases done
  | cons first digits =>
    rw [readPower] at done
    split at done
    · rename_i digit
      cases absorbed : absorb exponentBound 0 (first :: digits) with
      | mk power middle =>
      rw [absorbed] at done
      dsimp only at done
      obtain ⟨front, split, alwaysFront⟩ := absorb_again absorbed
      -- The front of the digits is absorbed as before; what comes next decides as before.
      have reread : ∀ after, after.head? = middle.head? →
          (readPower negative significand exponent raising (front ++ after) : Except (Fault ρ) _) =
            if startsWithDigit middle then
              if significand ≠ 0 && raising then .error (.on .numberOutOfRange after)
              else .ok (signed negative 0.0, dropDigits after)
            else readScaled negative significand
              (if raising then exponent + power else exponent - power) after := by
        intro after alike
        have sameFirst : (front ++ after).head? = some first := by
          rw [head?_append_congr front alike, ← split]
          rfl
        obtain ⟨others, same⟩ := List.head?_eq_some_iff.mp sameFirst
        rw [same, readPower, if_pos digit, ← same, alwaysFront after alike, ← startsWithDigit_congr alike]
      rw [split]
      split at done
      · rename_i goesOn
        split at done
        · cases done
        · rename_i small
          obtain ⟨rfl, dropped⟩ := Prod.mk.inj (Except.ok.inj done)
          obtain ⟨back, rfl, alwaysBack⟩ := dropDigits_again dropped
          refine ⟨front ++ back, (List.append_assoc ..).symm, fun after alike => ?_⟩
          rw [List.append_assoc, reread _ (head?_append_congr back alike), if_pos goesOn, if_neg small,
            alwaysBack after alike]
      · rename_i ends
        obtain ⟨rfl, alwaysScaled⟩ := readScaled_again done
        refine ⟨front, rfl, fun after alike => ?_⟩
        rw [reread after alike, if_neg ends, alwaysScaled]
    · cases done

/-- Without a sign the digits of an exponent come at once. -/
theorem readExponent_unsigned {negative : Bool} {significand : Nat} {exponent : Int}
    {text : List Char} (noPlus : text.head? ≠ some '+') (noMinus : text.head? ≠ some '-') :
    (readExponent negative significand exponent text : Except (Fault ρ) _) =
      readPower negative significand exponent true text := by
  unfold readExponent
  split
  · exact absurd rfl noPlus
  · exact absurd rfl noMinus
  · rfl

theorem peeking_readExponent (negative : Bool) (significand : Nat) (exponent : Int) :
    Peeking (readExponent negative significand exponent : Reader ρ Number) := by
  intro text value rest done
  by_cases plus : text.head? = some '+'
  · obtain ⟨digits, rfl⟩ := List.head?_eq_some_iff.mp plus
    obtain ⟨taken, rfl, always⟩ := peeking_readPower negative significand exponent true done
    exact ⟨'+' :: taken, rfl, always⟩
  by_cases minus : text.head? = some '-'
  · obtain ⟨digits, rfl⟩ := List.head?_eq_some_iff.mp minus
    obtain ⟨taken, rfl, always⟩ := peeking_readPower negative significand exponent false done
    exact ⟨'-' :: taken, rfl, always⟩
  rw [readExponent_unsigned plus minus] at done
  obtain ⟨taken, rfl, always⟩ := peeking_readPower negative significand exponent true done
  refine ⟨taken, rfl, fun after alike => ?_⟩
  rw [← head?_append_congr taken alike] at plus minus
  rw [readExponent_unsigned plus minus, always after alike]

theorem peeking_readAfterFraction (negative : Bool) (significand : Nat) (exponent : Int) :
    Peeking (readAfterFraction negative significand exponent : Reader ρ Number) := by
  intro text value rest done
  cases text with
  | nil =>
    obtain ⟨rfl, _⟩ := readScaled_again done
    refine ⟨[], rfl, fun after alike => ?_⟩
    obtain rfl := List.head?_eq_none_iff.mp alike
    exact done
  | cons c digits =>
    rw [readAfterFraction] at done
    split at done
    · rename_i mark
      obtain ⟨taken, rfl, always⟩ := peeking_readExponent negative significand exponent done
      refine ⟨c :: taken, rfl, fun after alike => ?_⟩
      rw [List.cons_append, readAfterFraction, if_pos mark, always after alike]
    · rename_i noMark
      obtain ⟨rfl, alwaysScaled⟩ := readScaled_again done
      refine ⟨[], rfl, fun after alike => ?_⟩
      obtain ⟨others, rfl⟩ := List.head?_eq_some_iff.mp alike
      rw [List.nil_append, readAfterFraction, if_neg noMark, alwaysScaled]

theorem peeking_readFraction (negative : Bool) (significand dropped : Nat) :
    Peeking (readFraction negative significand dropped : Reader ρ Number) := by
  intro text value rest done
  cases text with
  | nil => cases done
  | cons first digits =>
    rw [readFraction] at done
    split at done
    · rename_i digit
      cases absorbed : absorb wordBound significand (first :: digits) with
      | mk grown middle =>
      rw [absorbed] at done
      dsimp only at done
      generalize gone : dropDigits middle = behind at done
      obtain ⟨front, surplus, _, split, rfl, alwaysDigits⟩ := digits_again digit absorbed gone
      rw [split] at done
      obtain ⟨back, rfl, alwaysBack⟩ := peeking_readAfterFraction negative grown _ done
      refine ⟨front ++ (surplus ++ back), by rw [split]; simp only [List.append_assoc],
        fun after alike => ?_⟩
      obtain ⟨others, same, absorbedAgain, goneAgain⟩ :=
        alwaysDigits (back ++ after) (head?_append_congr back alike)
      have sameCount : (first :: others).length - (surplus ++ (back ++ after)).length =
          (front ++ (surplus ++ (back ++ rest))).length - (surplus ++ (back ++ rest)).length := by
        rw [← same]
        simp only [List.length_append]
        omega
      simp only [List.append_assoc]
      rw [same, readFraction, if_pos digit, absorbedAgain]
      dsimp only
      rw [goneAgain, sameCount, alwaysBack after alike]
    · cases done

/-- A numeral without fraction and exponent takes nothing more. -/
theorem readAfterWhole_plain {negative : Bool} {significand dropped : Nat} {text : List Char}
    (noPoint : text.head? ≠ some '.') (noMark : ∀ c, text.head? = some c → isExponentMark c = false) :
    (readAfterWhole negative significand dropped text : Except (Fault ρ) _) =
      if dropped = 0 then .ok (integer negative significand, text)
      else readScaled negative significand dropped text := by
  unfold readAfterWhole
  cases text with
  | nil => rfl
  | cons c others =>
    dsimp only
    rw [if_neg fun point => noPoint (congrArg some point), noMark c rfl, if_neg Bool.false_ne_true]

theorem peeking_readAfterWhole (negative : Bool) (significand dropped : Nat) :
    Peeking (readAfterWhole negative significand dropped : Reader ρ Number) := by
  intro text value rest done
  by_cases point : text.head? = some '.'
  · obtain ⟨digits, rfl⟩ := List.head?_eq_some_iff.mp point
    obtain ⟨taken, rfl, always⟩ := peeking_readFraction negative significand dropped done
    exact ⟨'.' :: taken, rfl, always⟩
  by_cases mark : ∃ c, text.head? = some c ∧ isExponentMark c = true
  · obtain ⟨c, first, mark⟩ := mark
    obtain ⟨digits, rfl⟩ := List.head?_eq_some_iff.mp first
    have noPoint : c ≠ '.' := fun same => point (congrArg some same)
    unfold readAfterWhole at done
    dsimp only at done
    rw [if_neg noPoint, if_pos mark] at done
    obtain ⟨taken, rfl, always⟩ := peeking_readExponent negative significand dropped done
    refine ⟨c :: taken, rfl, fun after alike => ?_⟩
    unfold readAfterWhole
    rw [List.cons_append]
    dsimp only
    rw [if_neg noPoint, if_pos mark, always after alike]
  have noMark : ∀ c, text.head? = some c → isExponentMark c = false := fun c first =>
    Bool.eq_false_iff.mpr fun isMark => mark ⟨c, first, isMark⟩
  rw [readAfterWhole_plain point noMark] at done
  have nothing : rest = text ∧ ∀ after, (if dropped = 0 then .ok (integer negative significand, after)
      else readScaled negative significand dropped after) = (.ok (value, after) : Except (Fault ρ) _) := by
    split at done
    · rename_i whole
      cases done
      exact ⟨rfl, fun _ => if_pos whole⟩
    · rename_i scaled
      obtain ⟨same, always⟩ := readScaled_again done
      exact ⟨same, fun after => (if_neg scaled).trans (always after)⟩
  obtain ⟨rfl, always⟩ := nothing
  refine ⟨[], rfl, fun after alike => ?_⟩
  rw [← alike] at point
  rw [List.nil_append, readAfterWhole_plain point fun c first => noMark c (alike ▸ first), always]

/-- A numeral takes at least its first digit. -/
theorem peeking_readNumber (negative : Bool) :
    Peeking (readNumber negative : Reader ρ Number) := by
  intro text value rest done
  cases text with
  | nil => cases done
  | cons first digits =>
    rw [readNumber] at done
    split at done
    · rename_i zero
      split at done
      · cases done
      · rename_i alone
        obtain ⟨taken, rfl, always⟩ := peeking_readAfterWhole negative 0 0 done
        refine ⟨first :: taken, rfl, fun after alike => ?_⟩
        rw [List.cons_append, readNumber, if_pos zero,
          startsWithDigit_congr (head?_append_congr taken alike), if_neg alone, always after alike]
    · rename_i notZero
      split at done
      · rename_i digit
        cases absorbed : absorb wordBound 0 (first :: digits) with
        | mk significand middle =>
        rw [absorbed] at done
        dsimp only at done
        generalize gone : dropDigits middle = behind at done
        obtain ⟨front, surplus, _, split, rfl, alwaysDigits⟩ := digits_again digit absorbed gone
        obtain ⟨back, rfl, alwaysBack⟩ := peeking_readAfterWhole negative significand _ done
        refine ⟨front ++ (surplus ++ back), by rw [split]; simp only [List.append_assoc],
          fun after alike => ?_⟩
        obtain ⟨others, same, absorbedAgain, goneAgain⟩ :=
          alwaysDigits (back ++ after) (head?_append_congr back alike)
        have sameCount : (surplus ++ (back ++ after)).length - (back ++ after).length =
            (surplus ++ (back ++ rest)).length - (back ++ rest).length := by
          simp only [List.length_append]
          omega
        simp only [List.append_assoc]
        rw [same, readNumber, if_neg notZero, if_pos digit, absorbedAgain]
        dsimp only
        rw [goneAgain, sameCount, alwaysBack after alike]
      · cases done

theorem advances_readNumber (negative : Bool) : Advances (readNumber negative : Reader ρ Number) := by
  intro text value rest done
  cases text with
  | nil => cases done
  | cons first digits =>
    rw [readNumber] at done
    split at done
    · split at done
      · cases done
      · obtain ⟨taken, rfl, _⟩ := peeking_readAfterWhole negative 0 0 done
        simp only [List.length_cons, List.length_append]
        omega
    · split at done
      · rename_i digit
        cases absorbed : absorb wordBound 0 (first :: digits) with
        | mk significand middle =>
        rw [absorbed] at done
        obtain ⟨front, surplus, some, split, _⟩ := digits_again digit absorbed rfl
        obtain ⟨taken, behind, _⟩ := peeking_readAfterWhole negative _ _ done
        have := List.length_pos_iff.mpr some
        rw [split, behind]
        simp only [List.length_append] at this ⊢
        omega
      · cases done

theorem peeking_skimDigits : Peeking (fun digits => if startsWithDigit digits then
    .ok ((), dropDigits digits) else .error (.on .invalidNumber digits) : Reader ρ Unit) := by
  intro text value rest done
  dsimp only at done
  split at done
  · rename_i digit
    obtain ⟨_, dropped⟩ := Prod.mk.inj (Except.ok.inj done)
    obtain ⟨taken, rfl, always⟩ := dropDigits_again dropped
    refine ⟨taken, rfl, fun after alike => ?_⟩
    dsimp only
    rw [startsWithDigit_congr (head?_append_congr taken alike), if_pos digit, always after alike]
  · cases done

theorem skimExponent_unsigned {text : List Char} (noPlus : text.head? ≠ some '+')
    (noMinus : text.head? ≠ some '-') :
    (skimExponent text : Except (Fault ρ) _) = if startsWithDigit text then .ok ((), dropDigits text)
      else .error (.on .invalidNumber text) := by
  unfold skimExponent
  split
  · exact absurd rfl noPlus
  · exact absurd rfl noMinus
  · rfl

theorem peeking_skimExponent : Peeking (skimExponent : Reader ρ Unit) := by
  intro text value rest done
  by_cases plus : text.head? = some '+'
  · obtain ⟨digits, rfl⟩ := List.head?_eq_some_iff.mp plus
    obtain ⟨taken, rfl, always⟩ := peeking_skimDigits done
    exact ⟨'+' :: taken, rfl, always⟩
  by_cases minus : text.head? = some '-'
  · obtain ⟨digits, rfl⟩ := List.head?_eq_some_iff.mp minus
    obtain ⟨taken, rfl, always⟩ := peeking_skimDigits done
    exact ⟨'-' :: taken, rfl, always⟩
  rw [skimExponent_unsigned plus minus] at done
  obtain ⟨taken, rfl, always⟩ := peeking_skimDigits done
  refine ⟨taken, rfl, fun after alike => ?_⟩
  rw [← head?_append_congr taken alike] at plus minus
  rw [skimExponent_unsigned plus minus, ← always after alike]

theorem peeking_skimAfterFraction : Peeking (skimAfterFraction : Reader ρ Unit) := by
  intro text value rest done
  cases text with
  | nil =>
    cases done
    refine ⟨[], rfl, fun after alike => ?_⟩
    obtain rfl := List.head?_eq_none_iff.mp alike
    rfl
  | cons c digits =>
    rw [skimAfterFraction] at done
    split at done
    · rename_i mark
      obtain ⟨taken, rfl, always⟩ := peeking_skimExponent done
      refine ⟨c :: taken, rfl, fun after alike => ?_⟩
      rw [List.cons_append, skimAfterFraction, if_pos mark, always after alike]
    · rename_i noMark
      cases done
      refine ⟨[], rfl, fun after alike => ?_⟩
      obtain ⟨others, rfl⟩ := List.head?_eq_some_iff.mp alike
      rw [List.nil_append, skimAfterFraction, if_neg noMark]

theorem skimAfterWhole_plain {text : List Char} (noPoint : text.head? ≠ some '.') :
    (skimAfterWhole text : Except (Fault ρ) _) = skimAfterFraction text := by
  unfold skimAfterWhole
  split
  · exact absurd rfl noPoint
  · rfl

theorem peeking_skimAfterWhole : Peeking (skimAfterWhole : Reader ρ Unit) := by
  intro text value rest done
  by_cases point : text.head? = some '.'
  · obtain ⟨digits, rfl⟩ := List.head?_eq_some_iff.mp point
    rw [skimAfterWhole] at done
    split at done
    · rename_i digit
      generalize gone : dropDigits digits = behind at done
      obtain ⟨front, rfl, alwaysFront⟩ := dropDigits_again gone
      obtain ⟨back, rfl, alwaysBack⟩ := peeking_skimAfterFraction done
      refine ⟨'.' :: (front ++ back), by simp, fun after alike => ?_⟩
      have alikeBack := head?_append_congr back alike
      rw [List.cons_append, List.append_assoc, skimAfterWhole,
        startsWithDigit_congr (head?_append_congr front alikeBack), if_pos digit,
        alwaysFront _ alikeBack, alwaysBack after alike]
    · cases done
  · rw [skimAfterWhole_plain point] at done
    obtain ⟨taken, rfl, always⟩ := peeking_skimAfterFraction done
    refine ⟨taken, rfl, fun after alike => ?_⟩
    rw [← head?_append_congr taken alike] at point
    rw [skimAfterWhole_plain point, always after alike]

theorem peeking_skimNumber : Peeking (skimNumber : Reader ρ Unit) := by
  intro text value rest done
  cases text with
  | nil => cases done
  | cons first digits =>
    rw [skimNumber] at done
    split at done
    · rename_i zero
      split at done
      · cases done
      · rename_i alone
        obtain ⟨taken, rfl, always⟩ := peeking_skimAfterWhole done
        refine ⟨first :: taken, rfl, fun after alike => ?_⟩
        rw [List.cons_append, skimNumber, if_pos zero,
          startsWithDigit_congr (head?_append_congr taken alike), if_neg alone, always after alike]
    · rename_i notZero
      split at done
      · rename_i digit
        generalize gone : dropDigits digits = behind at done
        obtain ⟨front, rfl, alwaysFront⟩ := dropDigits_again gone
        obtain ⟨back, rfl, alwaysBack⟩ := peeking_skimAfterWhole done
        refine ⟨first :: (front ++ back), by simp, fun after alike => ?_⟩
        rw [List.cons_append, List.append_assoc, skimNumber, if_neg notZero, if_pos digit,
          alwaysFront _ (head?_append_congr back alike), alwaysBack after alike]
      · cases done

theorem advances_skimNumber : Advances (skimNumber : Reader ρ Unit) := by
  intro text value rest done
  cases text with
  | nil => cases done
  | cons first digits =>
    rw [skimNumber] at done
    split at done
    · split at done
      · cases done
      · obtain ⟨taken, rfl, _⟩ := peeking_skimAfterWhole done
        simp only [List.length_cons, List.length_append]
        omega
    · split at done
      · generalize gone : dropDigits digits = behind at done
        obtain ⟨front, rfl, _⟩ := dropDigits_again gone
        obtain ⟨taken, rfl, _⟩ := peeking_skimAfterWhole done
        simp only [List.length_cons, List.length_append]
        omega
      · cases done

end Numerals

end Mixin.Json
