/-
**Values are read alike for every kind of refusal.**

A reader of the grammar refuses nothing: the type of its reasons is a parameter that it never uses.  So
changing the reasons changes nothing in what is read, and nothing in the faults of the grammar.  A
document, which has no reasons for refusal, is thereby read like the same value inside a declaration.

* `translate f` — the same result with other reasons.
* `translate_readOpening`, `translate_readItemsFrom`, `translate_readMembersFrom` — the parts of a value.
* **`translate_readValue`** — whole values.
-/

import Mixin.Proofs.Json.Reading

namespace Mixin.Json

open Text (dropJsonBlank)

variable {ρ τ α β σ : Type} {f : ρ → τ}

/-! ### Other reasons -/

section Translation

/-- The same fault with another reason. -/
def translateFault (f : ρ → τ) : Fault ρ → Fault τ
  | .malformed cause left => .malformed cause left
  | .rejected why => .rejected (f why)

/-- The same result with other reasons for refusal. -/
def translate (f : ρ → τ) (result : Except (Fault ρ) α) : Except (Fault τ) α :=
  result.mapError (translateFault f)

@[simp] theorem translate_ok (value : α) : translate f (.ok value) = .ok value := rfl

@[simp] theorem translate_malformed (cause : Cause) (left : Nat) :
    translate f (.error (.malformed cause left) : Except (Fault ρ) α) =
      .error (.malformed cause left) := rfl

@[simp] theorem translate_on (cause : Cause) (rest : List Char) :
    translate f (.error (.on cause rest) : Except (Fault ρ) α) = .error (.on cause rest) := rfl

@[simp] theorem translate_before (cause : Cause) (rest : List Char) :
    translate f (.error (.before cause rest) : Except (Fault ρ) α) = .error (.before cause rest) := rfl

theorem translate_bind (first : Except (Fault ρ) α) (next : α → Except (Fault ρ) β) :
    translate f (first >>= next) = translate f first >>= fun found => translate f (next found) := by
  cases first <;> rfl

/-- Results in sequence are the same with other reasons if the first one is, and each that follows. -/
theorem translate_bind_eq {first : Except (Fault ρ) α} {next : α → Except (Fault ρ) β}
    {first' : Except (Fault τ) α} {next' : α → Except (Fault τ) β}
    (same : translate f first = first') (after : ∀ found, translate f (next found) = next' found) :
    translate f (first >>= next) = first' >>= next' := by
  rw [translate_bind, same]
  exact bind_congr after

@[simp] theorem translate_ite (p : Prop) [Decidable p] (yes no : Except (Fault ρ) α) :
    translate f (if p then yes else no) = if p then translate f yes else translate f no :=
  apply_ite (translate f) p yes no

end Translation

/-! ### Strings -/

section Strings

@[simp] theorem translate_readQuad (text : List Char) :
    translate f (readQuad text) = readQuad text := by
  unfold readQuad
  split <;> simp

@[simp] theorem translate_readTrailing (leading : Nat) (text : List Char) :
    translate f (readTrailing leading text) = readTrailing leading text := by
  unfold readTrailing
  split
  · rfl
  · split
    · rfl
    · exact translate_bind_eq (translate_readQuad _) fun found => by simp
    · rfl
  · rfl

@[simp] theorem translate_readNumeric (text : List Char) :
    translate f (readNumeric text) = readNumeric text :=
  translate_bind_eq (translate_readQuad text) fun found => by simp

@[simp] theorem translate_readEscape (text : List Char) :
    translate f (readEscape text) = readEscape text := by
  cases text with
  | nil => rfl
  | cons letter rest =>
    rw [readEscape, readEscape, translate_ite, translate_readNumeric]
    congr 1
    split <;> rfl

@[simp] theorem translate_readChars (steps : Nat) (text : List Char) :
    translate f (readChars steps text) = readChars steps text := by
  induction steps generalizing text with
  | zero => rfl
  | succ steps ih =>
    cases text with
    | nil => rfl
    | cons c rest =>
      have plain : translate f (readChars steps rest >>= fun found => .ok (c :: found.1, found.2)) =
          (readChars steps rest >>= fun found => .ok (c :: found.1, found.2)) :=
        translate_bind_eq (ih rest) fun _ => rfl
      have escaped : translate f (readEscape rest >>= fun first =>
            readChars steps first.2 >>= fun found => .ok (first.1 :: found.1, found.2)) =
          (readEscape rest >>= fun first =>
            readChars steps first.2 >>= fun found => .ok (first.1 :: found.1, found.2)) :=
        translate_bind_eq (translate_readEscape rest) fun first =>
          translate_bind_eq (ih first.2) fun _ => rfl
      simp only [readChars, translate_ite, translate_ok, translate_on]
      rw [plain, escaped]

@[simp] theorem translate_readString (text : List Char) :
    translate f (readString text) = readString text :=
  translate_bind_eq (translate_readChars text.length text) fun _ => rfl

end Strings

/-! ### Numerals -/

section Numerals

variable (negative : Bool) (significand : Nat)

@[simp] theorem translate_readScaled (exponent : Int) (text : List Char) :
    translate f (readScaled negative significand exponent text) =
      readScaled negative significand exponent text := by
  unfold readScaled
  split <;> rfl

@[simp] theorem translate_readPower (exponent : Int) (raising : Bool) (text : List Char) :
    translate f (readPower negative significand exponent raising text) =
      readPower negative significand exponent raising text := by
  cases text <;> simp [readPower]

@[simp] theorem translate_readExponent (exponent : Int) (text : List Char) :
    translate f (readExponent negative significand exponent text) =
      readExponent negative significand exponent text := by
  unfold readExponent
  split <;> simp

@[simp] theorem translate_readAfterFraction (exponent : Int) (text : List Char) :
    translate f (readAfterFraction negative significand exponent text) =
      readAfterFraction negative significand exponent text := by
  cases text <;> simp [readAfterFraction]

@[simp] theorem translate_readFraction (dropped : Nat) (text : List Char) :
    translate f (readFraction negative significand dropped text) =
      readFraction negative significand dropped text := by
  cases text <;> simp [readFraction]

@[simp] theorem translate_readAfterWhole (dropped : Nat) (text : List Char) :
    translate f (readAfterWhole negative significand dropped text) =
      readAfterWhole negative significand dropped text := by
  cases text <;> simp [readAfterWhole]

@[simp] theorem translate_readNumber (text : List Char) :
    translate f (readNumber negative text) = readNumber negative text := by
  cases text <;> simp [readNumber]

end Numerals

/-! ### Punctuation -/

section Punctuation

@[simp] theorem translate_readWord (word text : List Char) :
    translate f (readWord word text) = readWord word text := by
  induction word generalizing text with
  | nil => rfl
  | cons expected others ih => cases text <;> simp [readWord, ih]

/-- **A value begins alike.** -/
@[simp] theorem translate_readOpening (text : List Char) :
    translate f (readOpening text) = readOpening text := by
  unfold readOpening
  split
  · rfl
  · simp [translate_bind]

@[simp] theorem translate_nextItem (first : Bool) (text : List Char) :
    translate f (nextItem first text) = nextItem first text := by
  unfold nextItem
  split
  · rfl
  · simp only [translate_ite, translate_ok, translate_on]
    congr 3
    split <;> simp

@[simp] theorem translate_openKey (text : List Char) :
    translate f (openKey text) = openKey text := by
  unfold openKey
  split <;> rfl

@[simp] theorem translate_nextKey (first : Bool) (text : List Char) :
    translate f (nextKey first text) = nextKey first text := by
  unfold nextKey
  split
  · rfl
  · simp only [translate_ite, translate_ok, translate_on, translate_openKey]
    congr 3
    split <;> simp

@[simp] theorem translate_readColon (text : List Char) :
    translate f (readColon text) = readColon text := by
  unfold readColon
  split <;> simp

end Punctuation

/-! ### Values -/

section Values

theorem translate_readItemsFrom {read : Reader ρ α} {read' : Reader τ α}
    (items : ∀ text, translate f (read text) = read' text) (steps : Nat) :
    ∀ first text, translate f (readItemsFrom read steps first text) =
      readItemsFrom read' steps first text := by
  induction steps with
  | zero => exact fun _ _ => rfl
  | succ steps ih =>
    intro first text
    refine translate_bind_eq (translate_nextItem first text) fun step => ?_
    cases step with
    | close rest => rfl
    | part rest =>
      refine translate_bind_eq (items rest) fun found => ?_
      exact translate_bind_eq (ih false found.2) fun _ => rfl

/-- The reader of a member may be chosen anew, as long as it reads alike. -/
theorem translate_readMembersFrom {field : σ → String → Except (Fault ρ) (Reader ρ σ)}
    {field' : σ → String → Except (Fault τ) (Reader τ σ)}
    (members : ∀ state key, ∃ read read', field state key = .ok read ∧ field' state key = .ok read' ∧
      ∀ text, translate f (read text) = read' text) (steps : Nat) :
    ∀ first state text, translate f (readMembersFrom field steps first state text) =
      readMembersFrom field' steps first state text := by
  induction steps with
  | zero => exact fun _ _ _ => rfl
  | succ steps ih =>
    intro first state text
    refine translate_bind_eq (translate_nextKey first text) fun step => ?_
    cases step with
    | close rest => rfl
    | part rest =>
      refine translate_bind_eq (translate_readString rest) fun named => ?_
      obtain ⟨read, read', chosen, chosen', alike⟩ := members state named.1
      dsimp only
      rw [chosen, chosen']
      refine translate_bind_eq (translate_readColon named.2) fun colon => ?_
      exact translate_bind_eq (alike colon.2) fun next => ih false next.1 next.2

theorem translate_readWith {read : Reader ρ Json} {read' : Reader τ Json}
    (parts : ∀ text, translate f (read text) = read' text) (text : List Char) :
    translate f (readWith (some read) text) = readWith (some read') text := by
  refine translate_bind_eq (translate_readOpening text) fun opening => ?_
  cases opening with
  | scalar value rest => rfl
  | list rest => exact translate_bind_eq (translate_readItemsFrom parts _ _ rest) fun _ => rfl
  | object rest =>
    have members : ∀ (members : List (String × Json)) key, ∃ reader reader',
        readInto read members key = .ok reader ∧ readInto read' members key = .ok reader' ∧
          ∀ text, translate f (reader text) = reader' text :=
      fun members key => ⟨_, _, rfl, rfl, fun text => translate_bind_eq (parts text) fun _ => rfl⟩
    exact translate_bind_eq (translate_readMembersFrom members _ _ [] rest) fun _ => rfl

/-- **Values are read alike**, whatever the reasons for refusal. -/
theorem translate_readValue (f : ρ → τ) (depth : Nat) (text : List Char) :
    translate f (readValue depth text) = readValue depth text := by
  induction depth generalizing text with
  | zero =>
    refine translate_bind_eq (translate_readOpening text) fun opening => ?_
    cases opening <;> rfl
  | succ depth ih => exact translate_readWith ih text

end Values

end Mixin.Json
