/-
**What can be read can be skimmed.**

Skimming checks less than reading does: halves of pairs, ranges of numbers and the depth are not looked
at.  So whatever a reader takes, the skimmer passes over, and both stop at the same place.  The converse
fails: a numeral out of range is skimmed and not read.

* `Covers skim read` — the skimmer passes over whatever the reader takes.
* `covers_readString`, `covers_readNumber` — scalars.
* `readItemsFrom_eq_ok`, `readMembersFrom_eq_ok` — one step of reading an array or an object.
* `Completes ρ depth opening value rest`, `skimWith_of_opening` — how a value begins and goes on.
* **`covers_readValue`** — whole values, of any depth.
-/

import Mathlib.Data.List.DropRight
import Mixin.Proofs.Json.SkimLocality

namespace Mixin.Json

open Text (dropJsonBlank)

variable {ρ α σ : Type} {text rest : List Char}

/-- The skimmer passes over whatever the reader takes. -/
def Covers (skim : Reader ρ Unit) (read : Reader ρ α) : Prop :=
  ∀ ⦃text : List Char⦄ ⦃value : α⦄ ⦃rest : List Char⦄, read text = .ok (value, rest) →
    skim text = .ok ((), rest)

/-! ### Strings -/

section Strings

theorem readTrailing_eq_ok {leading : Nat} {c : Char}
    (done : readTrailing leading text = (.ok (c, rest) : Except (Fault ρ) _)) :
    ∃ digits code, text = '\\' :: 'u' :: digits ∧
      readQuad digits = (.ok (code, rest) : Except (Fault ρ) _) := by
  unfold readTrailing at done
  split at done
  · cases done
  · split at done
    · cases done
    · obtain ⟨⟨code, after⟩, quad, checked⟩ := bind_eq_ok done
      dsimp only at checked
      split at checked
      · obtain ⟨rfl, rfl⟩ := Prod.mk.inj (Except.ok.inj checked)
        exact ⟨_, code, rfl, quad⟩
      · cases checked
    · cases done
  · cases done

/-- A numeric escape is passed over, from its letter on. -/
theorem skimEscape_of_quad {code : Nat}
    (quad : readQuad text = (.ok (code, rest) : Except (Fault ρ) _)) :
    skimEscape ('u' :: text) = (.ok ((), rest) : Except (Fault ρ) _) := by
  rw [skimEscape, if_pos rfl, quad]
  rfl

/-- An escape is passed over at once; a pair of numeric escapes in two goes. -/
theorem skimEscape_of_readEscape {c : Char}
    (done : readEscape text = (.ok (c, rest) : Except (Fault ρ) _)) :
    skimEscape text = (.ok ((), rest) : Except (Fault ρ) _) ∨
      ∃ middle, skimEscape text = (.ok ((), '\\' :: middle) : Except (Fault ρ) _) ∧
        skimEscape middle = (.ok ((), rest) : Except (Fault ρ) _) := by
  cases text with
  | nil => cases done
  | cons letter digits =>
    rw [readEscape] at done
    split at done
    · rename_i numeric
      subst numeric
      obtain ⟨⟨code, after⟩, quad, checked⟩ := bind_eq_ok done
      dsimp only at checked
      split at checked
      · cases checked
      · split at checked
        · obtain ⟨second, trailing, rfl, quadAgain⟩ := readTrailing_eq_ok checked
          exact .inr ⟨_, skimEscape_of_quad quad, skimEscape_of_quad quadAgain⟩
        · cases checked
          exact .inl (skimEscape_of_quad quad)
    · rename_i notNumeric
      split at done
      · rename_i short
        cases done
        rw [skimEscape, if_neg notNumeric, short]
        exact .inl rfl
      · cases done

/-- One more escape before what is passed over. -/
theorem skimChars_escape {steps : Nat} {middle : List Char}
    (escape : skimEscape text = (.ok ((), middle) : Except (Fault ρ) _)) :
    (skimChars (steps + 1) ('\\' :: text) : Except (Fault ρ) _) = skimChars steps middle := by
  rw [skimChars, if_neg (by decide), if_pos rfl, escape]
  rfl

/-- Pairs take a step each to read and two to pass over, so the number of steps is left open. -/
theorem skimChars_of_readChars (steps : Nat) :
    ∀ {text chars rest : List Char}, readChars steps text = (.ok (chars, rest) : Except (Fault ρ) _) →
      ∃ more, skimChars more text = (.ok ((), rest) : Except (Fault ρ) _) := by
  induction steps with
  | zero =>
    intro text chars rest done
    cases done
  | succ steps ih =>
    intro text chars rest done
    cases text with
    | nil => cases done
    | cons c behind =>
      rw [readChars] at done
      split at done
      · rename_i quote
        cases done
        exact ⟨1, if_pos quote⟩
      · rename_i notQuote
        split at done
        · rename_i backslash
          subst backslash
          obtain ⟨⟨first, after⟩, escape, finished⟩ := bind_eq_ok done
          obtain ⟨⟨others, final⟩, more, same⟩ := bind_eq_ok finished
          cases same
          obtain ⟨size, skimmed⟩ := ih more
          rcases skimEscape_of_readEscape escape with single | ⟨middle, leading, trailing⟩
          · exact ⟨size + 1, by rw [skimChars_escape single, skimmed]⟩
          · exact ⟨size + 2, by rw [skimChars_escape leading, skimChars_escape trailing, skimmed]⟩
        · rename_i notBackslash
          split at done
          · cases done
          · rename_i notControl
            obtain ⟨⟨others, final⟩, more, same⟩ := bind_eq_ok done
            cases same
            obtain ⟨size, skimmed⟩ := ih more
            refine ⟨size + 1, ?_⟩
            rw [skimChars, if_neg notQuote, if_neg notBackslash, if_neg notControl, skimmed]

theorem covers_readString : Covers (skimString : Reader ρ Unit) readString := by
  intro text value rest done
  obtain ⟨⟨chars, final⟩, read, same⟩ := bind_eq_ok done
  cases same
  obtain ⟨more, skimmed⟩ := skimChars_of_readChars _ read
  obtain ⟨taken, _, rfl, always⟩ := skimChars_again more skimmed
  exact always _ rest (by rw [List.length_append]; omega)

end Strings

/-! ### Numerals -/

section Numerals

variable {negative : Bool} {significand : Nat} {value : Number}

/-- The digits that do not fit are dropped with the others. -/
theorem dropDigits_absorb (bound : Nat) :
    ∀ (text : List Char) (number : Nat), dropDigits (absorb bound number text).2 = dropDigits text := by
  intro text
  induction text with
  | nil => exact fun _ => rfl
  | cons c digits ih =>
    intro number
    rw [absorb]
    split
    · rename_i fits
      rw [Bool.and_eq_true] at fits
      rw [ih, dropDigits, dropDigits, List.dropWhile_cons_of_pos fits.1]
    · rfl

/-- Where no digit comes, none is dropped. -/
theorem dropDigits_of_not_startsWithDigit (ends : startsWithDigit text = false) :
    dropDigits text = text := by
  cases text with
  | nil => rfl
  | cons c others => exact List.dropWhile_cons_of_neg (by rw [show c.isDigit = false from ends]; simp)

theorem readScaled_rest {exponent : Int}
    (done : readScaled negative significand exponent text = (.ok (value, rest) : Except (Fault ρ) _)) :
    rest = text :=
  (readScaled_again done).1

/-- The digits of an exponent are all taken, also those beyond every double. -/
theorem readPower_eq_ok {exponent : Int} {raising : Bool}
    (done : readPower negative significand exponent raising text =
      (.ok (value, rest) : Except (Fault ρ) _)) :
    startsWithDigit text = true ∧ rest = dropDigits text := by
  cases text with
  | nil => cases done
  | cons first digits =>
    rw [readPower] at done
    split at done
    · rename_i digit
      refine ⟨digit, ?_⟩
      have dropped := dropDigits_absorb exponentBound (first :: digits) 0
      dsimp only at done
      split at done
      · split at done
        · cases done
        · cases done
          exact dropped
      · rename_i ends
        rw [Bool.not_eq_true] at ends
        rw [readScaled_rest done, ← dropped, dropDigits_of_not_startsWithDigit ends]
    · cases done

theorem covers_readExponent (exponent : Int) :
    Covers (skimExponent : Reader ρ Unit) (readExponent negative significand exponent) := by
  intro text value rest done
  unfold readExponent at done
  unfold skimExponent
  split at done
  all_goals
    obtain ⟨digits, rfl⟩ := readPower_eq_ok done
    exact if_pos digits

theorem covers_readAfterFraction (exponent : Int) :
    Covers (skimAfterFraction : Reader ρ Unit) (readAfterFraction negative significand exponent) := by
  intro text value rest done
  cases text with
  | nil =>
    obtain rfl := readScaled_rest done
    rfl
  | cons c behind =>
    rw [readAfterFraction] at done
    rw [skimAfterFraction]
    split at done
    · rename_i mark
      rw [if_pos mark, covers_readExponent exponent done]
    · rename_i noMark
      rw [if_neg noMark, readScaled_rest done]

theorem readFraction_eq_ok {dropped : Nat}
    (done : readFraction negative significand dropped text = (.ok (value, rest) : Except (Fault ρ) _)) :
    startsWithDigit text = true ∧
      skimAfterFraction (dropDigits text) = (.ok ((), rest) : Except (Fault ρ) _) := by
  cases text with
  | nil => cases done
  | cons first digits =>
    rw [readFraction] at done
    split at done
    · rename_i digit
      dsimp only at done
      have skimmed := covers_readAfterFraction _ done
      rw [dropDigits_absorb] at skimmed
      exact ⟨digit, skimmed⟩
    · cases done

theorem covers_readAfterWhole (dropped : Nat) :
    Covers (skimAfterWhole : Reader ρ Unit) (readAfterWhole negative significand dropped) := by
  intro text value rest done
  by_cases point : text.head? = some '.'
  · obtain ⟨digits, rfl⟩ := List.head?_eq_some_iff.mp point
    obtain ⟨digit, skimmed⟩ := readFraction_eq_ok done
    rw [skimAfterWhole, if_pos digit, skimmed]
  rw [skimAfterWhole_plain point]
  by_cases mark : ∃ c, text.head? = some c ∧ isExponentMark c = true
  · obtain ⟨c, first, mark⟩ := mark
    obtain ⟨digits, rfl⟩ := List.head?_eq_some_iff.mp first
    have noPoint : c ≠ '.' := fun same => point (congrArg some same)
    unfold readAfterWhole at done
    dsimp only at done
    rw [if_neg noPoint, if_pos mark] at done
    rw [skimAfterFraction, if_pos mark, covers_readExponent _ done]
  · have noMark : ∀ c, text.head? = some c → isExponentMark c = false := fun c first =>
      Bool.eq_false_iff.mpr fun isMark => mark ⟨c, first, isMark⟩
    rw [readAfterWhole_plain point noMark] at done
    have nothing : rest = text := by
      split at done
      · cases done
        rfl
      · exact readScaled_rest done
    rw [nothing]
    cases text with
    | nil => rfl
    | cons c others => rw [skimAfterFraction, noMark c rfl, if_neg Bool.false_ne_true]

theorem covers_readNumber (negative : Bool) :
    Covers (skimNumber : Reader ρ Unit) (readNumber negative) := by
  intro text value rest done
  cases text with
  | nil => cases done
  | cons first digits =>
    rw [readNumber] at done
    rw [skimNumber]
    split at done
    · rename_i zero
      rw [if_pos zero]
      split at done
      · cases done
      · rename_i alone
        rw [if_neg alone, covers_readAfterWhole _ done]
    · rename_i notZero
      rw [if_neg notZero]
      split at done
      · rename_i digit
        dsimp only at done
        have skimmed := covers_readAfterWhole _ done
        rw [dropDigits_absorb, dropDigits, List.dropWhile_cons_of_pos digit] at skimmed
        rw [if_pos digit]
        exact skimmed
      · cases done

end Numerals

/-! ### Arrays and objects -/

section Rows

variable {skim : Reader ρ Unit}

/-- Blanks before a value are not looked at. -/
def Blind (skim : Reader ρ Unit) : Prop := ∀ text, skim (dropJsonBlank text) = skim text

theorem dropJsonBlank_idem (text : List Char) :
    dropJsonBlank (dropJsonBlank text) = dropJsonBlank text :=
  List.dropWhile_idempotent _ _

/-- One step of reading the items of an array: their end, or an item and more. -/
theorem readItemsFrom_eq_ok {read : Reader ρ α} {steps : Nat} {first : Bool} {items : List α}
    (done : readItemsFrom read steps first text = .ok (items, rest)) :
    nextItem first text = (.ok (.close rest) : Except (Fault ρ) _) ∧ items = [] ∨
      ∃ behind item middle others, nextItem first text = (.ok (.part behind) : Except (Fault ρ) _) ∧
        read behind = .ok (item, middle) ∧
        readItemsFrom read (steps - 1) false middle = .ok (others, rest) ∧ items = item :: others := by
  cases steps with
  | zero => cases done
  | succ fewer =>
    obtain ⟨step, found, finished⟩ := bind_eq_ok done
    cases step with
    | close behind =>
      cases finished
      exact .inl ⟨found, rfl⟩
    | part behind =>
      obtain ⟨⟨item, middle⟩, one, finished⟩ := bind_eq_ok finished
      obtain ⟨⟨others, final⟩, more, same⟩ := bind_eq_ok finished
      cases same
      exact .inr ⟨behind, item, middle, others, found, one, more, rfl⟩

/-- One step of reading the members of an object: their end, or a member and more. -/
theorem readMembersFrom_eq_ok {field : σ → String → Except (Fault ρ) (Reader ρ σ)} {steps : Nat}
    {first : Bool} {start finish : σ}
    (done : readMembersFrom field steps first start text = .ok (finish, rest)) :
    nextKey first text = (.ok (.close rest) : Except (Fault ρ) _) ∧ finish = start ∨
      ∃ behind key afterKey read value next afterValue,
        nextKey first text = (.ok (.part behind) : Except (Fault ρ) _) ∧
        readString behind = (.ok (key, afterKey) : Except (Fault ρ) _) ∧
        field start key = .ok read ∧
        readColon afterKey = (.ok ((), value) : Except (Fault ρ) _) ∧
        read value = .ok (next, afterValue) ∧
        readMembersFrom field (steps - 1) false next afterValue = .ok (finish, rest) := by
  cases steps with
  | zero => cases done
  | succ fewer =>
    obtain ⟨step, found, finished⟩ := bind_eq_ok done
    cases step with
    | close behind =>
      cases finished
      exact .inl ⟨found, rfl⟩
    | part behind =>
      obtain ⟨⟨key, afterKey⟩, keyed, finished⟩ := bind_eq_ok finished
      obtain ⟨read, chosen, finished⟩ := bind_eq_ok finished
      obtain ⟨⟨_, value⟩, colon, finished⟩ := bind_eq_ok finished
      obtain ⟨⟨next, afterValue⟩, one, more⟩ := bind_eq_ok finished
      exact .inr ⟨behind, key, afterKey, read, value, next, afterValue, found, keyed, chosen, colon,
        one, more⟩

/-- An item that is not the first comes after a comma. -/
theorem nextItem_eq_ok {step : Step}
    (found : nextItem false text = (.ok step : Except (Fault ρ) _)) :
    (∃ rest, dropJsonBlank text = ']' :: rest ∧ step = .close rest) ∨
      ∃ behind, dropJsonBlank text = ',' :: behind ∧ step = .part (dropJsonBlank behind) := by
  unfold nextItem at found
  split at found
  · cases found
  · rename_i c behind dropped
    split at found
    · rename_i bracket
      cases found
      exact .inl ⟨behind, bracket ▸ dropped, rfl⟩
    · rw [if_neg Bool.false_ne_true] at found
      split at found
      · rename_i comma
        refine .inr ⟨behind, comma ▸ dropped, ?_⟩
        split at found
        · cases found
        · rename_i d after droppedAgain
          split at found
          · cases found
          · cases found
            rw [droppedAgain]
      · cases found

/-- A key that is not the first comes after a comma. -/
theorem nextKey_eq_ok {step : Step}
    (found : nextKey false text = (.ok step : Except (Fault ρ) _)) :
    (∃ rest, dropJsonBlank text = '}' :: rest ∧ step = .close rest) ∨
      ∃ behind rest, dropJsonBlank text = ',' :: behind ∧ dropJsonBlank behind = '"' :: rest ∧
        step = .part rest := by
  unfold nextKey at found
  split at found
  · cases found
  · rename_i c behind dropped
    split at found
    · rename_i brace
      cases found
      exact .inl ⟨behind, brace ▸ dropped, rfl⟩
    · rw [if_neg Bool.false_ne_true] at found
      split at found
      · rename_i comma
        split at found
        · cases found
        · rename_i d after droppedAgain
          split at found
          · cases found
          · obtain ⟨rest, split, rfl⟩ := openKey_eq_ok found
            exact .inr ⟨behind, rest, comma ▸ dropped, split ▸ droppedAgain, rfl⟩
      · cases found

/-- The first item, or the end at once. -/
theorem nextItem_first_eq_ok {step : Step}
    (found : nextItem true text = (.ok step : Except (Fault ρ) _)) :
    ∃ c behind, dropJsonBlank text = c :: behind ∧
      step = if c = ']' then .close behind else .part (c :: behind) := by
  unfold nextItem at found
  split at found
  · cases found
  · rename_i c behind dropped
    refine ⟨c, behind, dropped, ?_⟩
    split at found
    · rename_i bracket
      cases found
      rw [if_pos bracket]
    · rename_i noBracket
      cases found
      rw [if_neg noBracket]

/-- Whether an array ends is told by the first character after blanks. -/
theorem nextItem_head {first : Bool} {step : Step}
    (found : nextItem first text = (.ok step : Except (Fault ρ) _)) :
    ∃ c behind, dropJsonBlank text = c :: behind ∧
      (c = ']' ∧ step = .close behind ∨ c ≠ ']' ∧ ∃ rest, step = .part rest) := by
  cases first with
  | false =>
    rcases nextItem_eq_ok found with ⟨rest, dropped, rfl⟩ | ⟨behind, dropped, rfl⟩
    · exact ⟨_, _, dropped, .inl ⟨rfl, rfl⟩⟩
    · exact ⟨_, _, dropped, .inr ⟨by decide, _, rfl⟩⟩
  | true =>
    obtain ⟨c, behind, dropped, rfl⟩ := nextItem_first_eq_ok found
    refine ⟨c, behind, dropped, ?_⟩
    by_cases bracket : c = ']'
    · exact .inl ⟨bracket, if_pos bracket⟩
    · exact .inr ⟨bracket, _, if_neg bracket⟩

theorem nextKey_first_eq_ok {step : Step}
    (found : nextKey true text = (.ok step : Except (Fault ρ) _)) :
    ∃ c behind, dropJsonBlank text = c :: behind ∧
      (c = '}' ∧ step = .close behind ∨ c = '"' ∧ step = .part behind) := by
  unfold nextKey at found
  split at found
  · cases found
  · rename_i c behind dropped
    refine ⟨c, behind, dropped, ?_⟩
    split at found
    · rename_i brace
      cases found
      exact .inl ⟨brace, rfl⟩
    · obtain ⟨rest, split, rfl⟩ := openKey_eq_ok found
      cases split
      exact .inr ⟨rfl, rfl⟩

theorem covers_readItemsFrom {read : Reader ρ α} (parts : Covers skim read) (blind : Blind skim)
    (steps : Nat) : Covers (skimItemsFrom skim steps) (readItemsFrom read steps false) := by
  induction steps with
  | zero =>
    intro text items rest done
    cases done
  | succ steps ih =>
    intro text items rest done
    rcases readItemsFrom_eq_ok done with ⟨found, _⟩ | ⟨_, item, middle, others, found, one, more, _⟩
    · rcases nextItem_eq_ok found with ⟨_, dropped, same⟩ | ⟨_, _, impossible⟩
      · cases same
        rw [skimItemsFrom, dropped]
        rfl
      · cases impossible
    · rcases nextItem_eq_ok found with ⟨_, _, impossible⟩ | ⟨behind, dropped, same⟩
      · cases impossible
      · cases same
        have passed := parts one
        rw [blind] at passed
        rw [skimItemsFrom, dropped]
        show (skim behind >>= _) = _
        rw [passed]
        exact ih more

/-- An array is passed over if its items are. -/
theorem covers_readItems {read : Reader ρ α} (parts : Covers skim read) (blind : Blind skim)
    (peeking : Peeking read) (advances : Advances read) : Covers (skimItems skim) (readItems read) := by
  intro text items rest done
  unfold skimItems
  rcases readItemsFrom_eq_ok done with ⟨found, _⟩ | ⟨_, item, middle, others, found, one, more, _⟩
  · obtain ⟨c, behind, dropped, ⟨bracket, same⟩ | ⟨_, _, impossible⟩⟩ := nextItem_head found
    · cases same
      rw [dropped]
      exact if_pos bracket
    · cases impossible
  · obtain ⟨c, behind, dropped, same⟩ := nextItem_first_eq_ok found
    by_cases bracket : c = ']'
    · rw [if_pos bracket] at same
      cases same
    · rw [if_neg bracket] at same
      cases same
      rw [dropped]
      dsimp only
      rw [if_neg bracket, parts one]
      -- The skimmer counts its steps anew after the first item.
      obtain ⟨taken, _, rfl, always⟩ := readItemsFrom_again peeking advances _ more
      exact covers_readItemsFrom parts blind _
        (always _ rest (by rw [List.length_append]; omega))

/-- A member is passed over if its value is. -/
theorem skimMember_of_readString {key : String} {behind afterKey value : List Char}
    (dropped : dropJsonBlank text = '"' :: behind)
    (keyed : readString behind = (.ok (key, afterKey) : Except (Fault ρ) _))
    (colon : readColon afterKey = (.ok ((), value) : Except (Fault ρ) _)) :
    skimMember skim text = skim value := by
  unfold skimMember
  rw [dropped]
  dsimp only
  rw [if_pos rfl, covers_readString keyed]
  show (readColon afterKey >>= _) = _
  rw [colon]
  rfl

variable {field : σ → String → Except (Fault ρ) (Reader ρ σ)}

theorem covers_readMembersFrom
    (parts : ∀ state key read, field state key = .ok read → Covers skim read) (steps : Nat) :
    ∀ start, Covers (skimMembersFrom skim steps) (readMembersFrom field steps false start) := by
  induction steps with
  | zero =>
    intro start text finish rest done
    cases done
  | succ steps ih =>
    intro start text finish rest done
    rw [skimMembersFrom]
    rcases readMembersFrom_eq_ok done with
      ⟨found, _⟩ | ⟨_, key, _, read, _, next, _, found, keyed, chosen, colon, one, more⟩
    · rcases nextKey_eq_ok found with ⟨_, dropped, same⟩ | ⟨_, _, _, _, impossible⟩
      · cases same
        rw [dropped]
        rfl
      · cases impossible
    · rcases nextKey_eq_ok found with ⟨_, _, impossible⟩ | ⟨behind, inside, dropped, quote, same⟩
      · cases impossible
      · cases same
        rw [dropped]
        show (skimMember skim behind >>= _) = _
        rw [skimMember_of_readString quote keyed colon, parts start key read chosen one]
        exact ih next more

/-- An object is passed over if its members are. -/
theorem covers_readMembers
    (parts : ∀ state key read, field state key = .ok read → Covers skim read)
    (peeking : ∀ state key read, field state key = .ok read → Peeking read) (start : σ) :
    Covers (skimMembers skim) (readMembers field start) := by
  intro text finish rest done
  unfold skimMembers
  rcases readMembersFrom_eq_ok done with
    ⟨found, _⟩ | ⟨inside, key, _, read, _, next, _, found, keyed, chosen, colon, one, more⟩
  · obtain ⟨c, behind, dropped, ⟨rfl, same⟩ | ⟨_, impossible⟩⟩ := nextKey_first_eq_ok found
    · cases same
      rw [dropped]
      rfl
    · cases impossible
  · obtain ⟨c, behind, dropped, ⟨_, impossible⟩ | ⟨rfl, same⟩⟩ := nextKey_first_eq_ok found
    · cases impossible
    · cases same
      rw [dropped]
      have quote : dropJsonBlank ('"' :: inside) = '"' :: inside := rfl
      show (skimMember skim ('"' :: inside) >>= _) = _
      rw [skimMember_of_readString quote keyed colon, parts start key read chosen one]
      obtain ⟨taken, _, rfl, always⟩ := readMembersFrom_again peeking _ more
      exact covers_readMembersFrom parts _ next
        (always _ rest (by rw [List.length_append]; omega))

end Rows

/-! ### Values -/

section Values

variable {skim : Reader ρ Unit}

/-- A value without parts. -/
def Scalar : Json → Prop
  | arr _ | obj _ => False
  | _ => True

/-- How a value that began goes on to its end. -/
inductive Completes (ρ : Type) : Nat → Opening → Json → List Char → Prop
  | scalar {depth : Nat} {value : Json} {rest : List Char} :
      value.Scalar → Completes ρ depth (.scalar value rest) value rest
  | list {depth : Nat} {behind rest : List Char} {items : List Json} :
      readItems (readValue depth : Reader ρ Json) behind = .ok (items, rest) →
      Completes ρ (depth + 1) (.list behind) (arr items) rest
  | object {depth : Nat} {behind rest : List Char} {members : List (String × Json)} :
      readMembers (readInto (readValue depth : Reader ρ Json)) [] behind = .ok (members, rest) →
      Completes ρ (depth + 1) (.object behind) (obj members) rest

theorem scalar_of_bind {read : Reader ρ α} (made : α → Json) (plain : ∀ found, (made found).Scalar)
    {value : Json} (opened : (read text >>= fun found => .ok (.scalar (made found.1) found.2)) =
      (.ok (.scalar value rest) : Except (Fault ρ) Opening)) : value.Scalar := by
  obtain ⟨⟨found, behind⟩, _, same⟩ := bind_eq_ok opened
  cases same
  exact plain found

/-- What is read whole at the beginning has no parts. -/
theorem scalar_of_opened {value : Json}
    (opened : readOpening text = (.ok (.scalar value rest) : Except (Fault ρ) _)) :
    value.Scalar := by
  unfold readOpening at opened
  split at opened
  · cases opened
  split at opened
  · exact scalar_of_bind (fun _ => null) (fun _ => trivial) opened
  split at opened
  · exact scalar_of_bind (fun _ => bool true) (fun _ => trivial) opened
  split at opened
  · exact scalar_of_bind (fun _ => bool false) (fun _ => trivial) opened
  split at opened
  · exact scalar_of_bind str (fun _ => trivial) opened
  split at opened
  · exact scalar_of_bind num (fun _ => trivial) opened
  split at opened
  · exact scalar_of_bind num (fun _ => trivial) opened
  split at opened
  · cases opened
  split at opened <;> cases opened

/-- A value that is read has begun, and gone on to its end. -/
theorem completes_of_readValue {depth : Nat} {value : Json}
    (done : readValue depth text = (.ok (value, rest) : Except (Fault ρ) _)) :
    ∃ opening, readOpening text = (.ok opening : Except (Fault ρ) _) ∧
      Completes ρ depth opening value rest := by
  cases depth with
  | zero =>
    obtain ⟨opening, opened, finished⟩ := bind_eq_ok done
    cases opening with
    | scalar found behind =>
      cases finished
      exact ⟨_, opened, .scalar (scalar_of_opened opened)⟩
    | list behind => cases finished
    | object behind => cases finished
  | succ depth =>
    obtain ⟨opening, opened, finished⟩ := bind_eq_ok done
    cases opening with
    | scalar found behind =>
      cases finished
      exact ⟨_, opened, .scalar (scalar_of_opened opened)⟩
    | list behind =>
      obtain ⟨⟨items, final⟩, one, same⟩ := bind_eq_ok finished
      cases same
      exact ⟨_, opened, .list one⟩
    | object behind =>
      obtain ⟨⟨members, final⟩, one, same⟩ := bind_eq_ok finished
      cases same
      exact ⟨_, opened, .object one⟩

/-- Passes over what is left of a value that has begun. -/
def skimOpened (skim : Reader ρ Unit) : Opening → Except (Fault ρ) (Unit × List Char)
  | .scalar _ rest => .ok ((), rest)
  | .list rest => skimItems skim rest
  | .object rest => skimMembers skim rest

/-- A scalar is passed over by whatever passes over what its reader takes. -/
theorem skimOpened_scalar {pass : Reader ρ Unit} {read : Reader ρ α} (value : α → Json)
    {opening : Opening} (covers : Covers pass read)
    (opened : (read text >>= fun found => .ok (.scalar (value found.1) found.2)) =
      (.ok opening : Except (Fault ρ) _)) :
    pass text = skimOpened skim opening := by
  obtain ⟨⟨found, rest⟩, done, same⟩ := bind_eq_ok opened
  cases same
  exact covers done

theorem covers_readWord (word : List Char) :
    Covers (readWord word : Reader ρ Unit) (readWord word) :=
  fun _ _ _ done => done

/-- **How a value begins** is passed over. -/
theorem skimWith_of_opening {opening : Opening}
    (opened : readOpening text = (.ok opening : Except (Fault ρ) _)) :
    skimWith skim text = skimOpened skim opening := by
  unfold readOpening at opened
  unfold skimWith
  cases dropped : dropJsonBlank text with
  | nil =>
    rw [dropped] at opened
    cases opened
  | cons c behind =>
    rw [dropped] at opened
    dsimp only at opened ⊢
    split at opened
    · rename_i isNull
      rw [if_pos isNull, skimOpened_scalar (fun _ => null) (covers_readWord _) opened]
    rename_i noNull
    rw [if_neg noNull]
    split at opened
    · rename_i isTrue
      rw [if_pos isTrue, skimOpened_scalar (fun _ => bool true) (covers_readWord _) opened]
    rename_i noTrue
    rw [if_neg noTrue]
    split at opened
    · rename_i isFalse
      rw [if_pos isFalse, skimOpened_scalar (fun _ => bool false) (covers_readWord _) opened]
    rename_i noFalse
    rw [if_neg noFalse]
    split at opened
    · rename_i quote
      rw [if_pos quote, skimOpened_scalar str covers_readString opened]
    rename_i noQuote
    rw [if_neg noQuote]
    split at opened
    · rename_i minus
      rw [if_pos minus, skimOpened_scalar num (covers_readNumber true) opened]
    rename_i noMinus
    rw [if_neg noMinus]
    split at opened
    · rename_i digit
      rw [if_pos digit, skimOpened_scalar num (covers_readNumber false) opened]
    rename_i noDigit
    rw [if_neg noDigit]
    split at opened
    · rename_i bracket
      cases opened
      exact if_pos bracket
    rename_i noBracket
    rw [if_neg noBracket]
    split at opened
    · rename_i brace
      cases opened
      exact if_pos brace
    · cases opened

theorem blind_skimWithin (depth : Nat) : Blind (skimWithin depth : Reader ρ Unit) := by
  intro text
  cases depth with
  | zero => rfl
  | succ depth =>
    rw [skimWithin, skimWithin]
    unfold skimWith
    rw [dropJsonBlank_idem]

/-- A value needs one level more to be passed over than it has brackets open at once. -/
theorem covers_skimWithin (depth : Nat) :
    Covers (skimWithin (depth + 1) : Reader ρ Unit) (readValue depth) := by
  induction depth with
  | zero =>
    intro text value rest done
    obtain ⟨opening, opened, completes⟩ := completes_of_readValue done
    rw [skimWithin, skimWith_of_opening opened]
    cases completes
    rfl
  | succ depth ih =>
    intro text value rest done
    obtain ⟨opening, opened, completes⟩ := completes_of_readValue done
    obtain ⟨peeking, advances⟩ := local_readValue (ρ := ρ) depth
    rw [skimWithin, skimWith_of_opening opened]
    cases completes with
    | scalar _ => rfl
    | list items => exact covers_readItems ih (blind_skimWithin (depth + 1)) peeking advances items
    | object members =>
      have each : ∀ (members : List (String × Json)) key reader,
          readInto (readValue depth : Reader ρ Json) members key = .ok reader →
            Covers (skimWithin (depth + 1)) reader ∧ Peeking reader := by
        intro members key reader chosen
        cases chosen
        refine ⟨fun text value rest done => ?_, peeking.map fun value => members ++ [(key, value)]⟩
        obtain ⟨⟨found, behind⟩, one, same⟩ := bind_eq_ok done
        cases same
        exact ih one
      exact covers_readMembers (fun members key reader chosen => (each members key reader chosen).1)
        (fun members key reader chosen => (each members key reader chosen).2) [] members

/-- **Whatever can be read can be skimmed**, and both stop at the same place. -/
theorem covers_readValue (depth : Nat) : Covers (skimValue : Reader ρ Unit) (readValue depth) := by
  intro text value rest done
  obtain ⟨taken, _, rfl, always⟩ := skimmedBy_skimWithin _ (covers_skimWithin depth done)
  exact always _ rest (by rw [List.length_append]; omega) rfl

end Values

end Mixin.Json
