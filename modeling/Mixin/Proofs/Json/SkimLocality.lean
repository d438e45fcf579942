/-
**Skimming is local.**

Passing over a value looks no further ahead than reading it does.  Skimmers know no limit of depth:
they are given one that no text can reach, and here it is shown that a value never needs more depth
than it has characters.

* `skimRow`, `skimParts` — the common form of arrays and objects.
* `Skimmed again text rest` — what leads from `text` to `rest` is passed over in front of other texts.
* **`peeking_skimValue`** — whole values.
-/

import Mixin.Proofs.Json.ValueLocality

namespace Mixin.Json

open Text (dropJsonBlank)

variable {ρ : Type}

/-! ### Passing over again -/

section Skimmed

/-- What leads from one text to the other is passed over, in front of any text that begins alike, by
the skimmers of any depth that reaches its length. -/
def Skimmed (again : Nat → Reader ρ Unit) (text rest : List Char) : Prop :=
  ∃ taken, taken ≠ [] ∧ text = taken ++ rest ∧ ∀ depth after, taken.length ≤ depth →
    after.head? = rest.head? → again depth (taken ++ after) = .ok ((), after)

/-- What is passed over once is passed over again. -/
def SkimmedBy (again : Nat → Reader ρ Unit) (skim : Reader ρ Unit) : Prop :=
  ∀ ⦃text rest : List Char⦄, skim text = .ok ((), rest) → Skimmed again text rest

end Skimmed

/-! ### Arrays and objects -/

section Rows

variable {again : Nat → Reader ρ Unit} {skim part : Reader ρ Unit} {close : Char}
  {ended wrong : Cause}

/-- Parts passed over one by one, each after a comma, up to a closing character.  Arrays and objects
differ in the character, in their parts and in the faults they name. -/
def skimRow (close : Char) (ended wrong : Cause) (part : Reader ρ Unit) : Nat → Reader ρ Unit
  | 0, _ => .error (.on ended [])
  | steps + 1, text =>
    match dropJsonBlank text with
    | [] => .error (.on ended [])
    | c :: rest =>
      if c = close then .ok ((), rest)
      else if c = ',' then part rest >>= fun found => skimRow close ended wrong part steps found.2
      else .error (.on wrong (c :: rest))

/-- All parts, the first of which comes without a comma. -/
def skimParts (close : Char) (ended wrong : Cause) (part : Reader ρ Unit) : Reader ρ Unit :=
  fun text =>
    match dropJsonBlank text with
    | [] => .error (.on ended [])
    | c :: rest =>
      if c = close then .ok ((), rest)
      else part (c :: rest) >>= fun found =>
        skimRow close ended wrong part found.2.length found.2

theorem skimItems_eq : skimItems skim = skimParts ']' .endInList .expectedCommaOrBracket skim := by
  have rows : skimItemsFrom skim = skimRow ']' .endInList .expectedCommaOrBracket skim := by
    funext steps
    induction steps with
    | zero => rfl
    | succ steps ih =>
      funext text
      rw [skimItemsFrom, ih]
      rfl
  unfold skimItems
  rw [rows]
  rfl

theorem skimMembers_eq :
    skimMembers skim = skimParts '}' .endInObject .expectedCommaOrBrace (skimMember skim) := by
  have rows : skimMembersFrom skim =
      skimRow '}' .endInObject .expectedCommaOrBrace (skimMember skim) := by
    funext steps
    induction steps with
    | zero => rfl
    | succ steps ih =>
      funext text
      rw [skimMembersFrom, ih]
      rfl
  unfold skimMembers
  rw [rows]
  rfl

theorem skimRow_again (skimmed : SkimmedBy again part) (steps : Nat) :
    ∀ {text rest : List Char}, skimRow close ended wrong part steps text = .ok ((), rest) →
      ∃ taken, taken ≠ [] ∧ text = taken ++ rest ∧ ∀ size depth after, taken.length ≤ size →
        taken.length ≤ depth →
          skimRow close ended wrong (again depth) size (taken ++ after) = .ok ((), after) := by
  induction steps with
  | zero =>
    intro text rest done
    cases done
  | succ steps ih =>
    intro text rest done
    rw [skimRow] at done
    split at done
    · cases done
    · rename_i c middle dropped
      obtain ⟨blanks, rfl, always⟩ := dropJsonBlank_again dropped
      split at done
      · rename_i closes
        cases done
        refine ⟨blanks ++ [c], by simp, by simp, fun size depth after enough _ => ?_⟩
        rw [List.length_append, List.length_singleton] at enough
        obtain ⟨size, rfl⟩ := Nat.exists_eq_add_of_le' (show 1 ≤ size by omega)
        rw [List.append_assoc, List.singleton_append, skimRow, always]
        exact if_pos closes
      · rename_i goesOn
        split at done
        · rename_i comma
          obtain ⟨⟨_, behind⟩, one, more⟩ := bind_eq_ok done
          obtain ⟨front, _, rfl, alwaysFront⟩ := skimmed one
          obtain ⟨back, someBack, rfl, alwaysBack⟩ := ih more
          refine ⟨blanks ++ c :: (front ++ back), by simp, by simp, fun size depth after enough deep => ?_⟩
          simp only [List.length_append, List.length_cons] at enough deep
          obtain ⟨size, rfl⟩ := Nat.exists_eq_add_of_le' (show 1 ≤ size by omega)
          rw [List.append_assoc, List.cons_append, List.append_assoc, skimRow, always]
          dsimp only
          rw [if_neg goesOn, if_pos comma,
            alwaysFront depth _ (by omega) (head?_append_of_ne_nil someBack after rest)]
          exact alwaysBack size depth after (by omega) (by omega)
        · cases done

/-- Arrays and objects are passed over again if their parts are. -/
theorem skimmedBy_skimParts (skimmed : SkimmedBy again part) :
    SkimmedBy (fun depth => skimParts close ended wrong (again depth))
      (skimParts close ended wrong part) := by
  intro text rest done
  unfold skimParts at done
  split at done
  · cases done
  · rename_i c middle dropped
    obtain ⟨blanks, rfl, always⟩ := dropJsonBlank_again dropped
    split at done
    · rename_i closes
      cases done
      refine ⟨blanks ++ [c], by simp, by simp, fun depth after _ _ => ?_⟩
      show skimParts close ended wrong (again depth) (blanks ++ [c] ++ after) = _
      unfold skimParts
      rw [List.append_assoc, List.singleton_append, always]
      exact if_pos closes
    · rename_i goesOn
      obtain ⟨⟨_, behind⟩, one, more⟩ := bind_eq_ok done
      obtain ⟨front, someFront, split, alwaysFront⟩ := skimmed one
      obtain ⟨back, someBack, rfl, alwaysBack⟩ := skimRow_again skimmed _ more
      obtain ⟨others, rfl⟩ : ∃ others, front = c :: others := by
        cases front with
        | nil => exact absurd rfl someFront
        | cons d others => exact ⟨others, by rw [(List.cons.inj split).1]⟩
      refine ⟨blanks ++ (c :: others ++ back), by simp, by rw [split]; simp, fun depth after deep _ => ?_⟩
      simp only [List.length_append] at deep
      have found := alwaysFront depth (back ++ after) (by omega)
        (head?_append_of_ne_nil someBack after rest)
      show skimParts close ended wrong (again depth) (blanks ++ (c :: others ++ back) ++ after) = _
      unfold skimParts
      rw [List.append_assoc, List.append_assoc, List.cons_append, always]
      dsimp only
      rw [if_neg goesOn, ← List.cons_append, found]
      exact alwaysBack _ depth after (by rw [List.length_append]; omega) (by omega)

theorem skimmedBy_skimMember (skimmed : SkimmedBy again skim) :
    SkimmedBy (fun depth => skimMember (again depth)) (skimMember skim) := by
  intro text rest done
  unfold skimMember at done
  split at done
  · cases done
  · rename_i c middle dropped
    obtain ⟨blanks, rfl, always⟩ := dropJsonBlank_again dropped
    split at done
    · rename_i quote
      obtain ⟨⟨_, afterKey⟩, key, finished⟩ := bind_eq_ok done
      obtain ⟨⟨_, afterColon⟩, colon, value⟩ := bind_eq_ok finished
      obtain ⟨name, _, rfl, alwaysName⟩ := delimited_skimString key
      obtain ⟨mark, _, rfl, alwaysMark⟩ := delimited_readColon colon
      obtain ⟨front, _, rfl, alwaysFront⟩ := skimmed value
      refine ⟨blanks ++ c :: (name ++ (mark ++ front)), by simp, by simp, fun depth after deep alike => ?_⟩
      simp only [List.length_append, List.length_cons] at deep
      unfold skimMember
      simp only [List.append_assoc, List.cons_append]
      rw [always]
      dsimp only
      rw [if_pos quote, alwaysName]
      show (readColon (mark ++ (front ++ after)) >>= _) = _
      rw [alwaysMark]
      exact alwaysFront depth after (by omega) alike
    · cases done

theorem skimmedBy_skimItems (skimmed : SkimmedBy again skim) :
    SkimmedBy (fun depth => skimItems (again depth)) (skimItems skim) := by
  simp only [skimItems_eq]
  exact skimmedBy_skimParts skimmed

theorem skimmedBy_skimMembers (skimmed : SkimmedBy again skim) :
    SkimmedBy (fun depth => skimMembers (again depth)) (skimMembers skim) := by
  simp only [skimMembers_eq]
  exact skimmedBy_skimParts (skimmedBy_skimMember skimmed)

end Rows

/-! ### Values -/

section Values

variable {skim : Reader ρ Unit}

theorem skimWith_blanks {blanks : List Char} (blank : Blanks blanks) (text : List Char) :
    skimWith skim (blanks ++ text) = skimWith skim text := by
  unfold skimWith
  rw [dropJsonBlank_of_blanks blank]

/-- A value that its first character tells is passed over again if what comes after the character is,
which has one character less. -/
theorem skimmed_cons {c : Char} {taken rest : List Char} (reads : Nat → Reader ρ Unit)
    (same : ∀ depth text, skimWith (skimWithin depth) (c :: text) = reads depth text)
    (always : ∀ depth after, taken.length ≤ depth → after.head? = rest.head? →
      reads depth (taken ++ after) = .ok ((), after)) :
    Skimmed (skimWithin : Nat → Reader ρ Unit) (c :: (taken ++ rest)) rest := by
  refine ⟨c :: taken, List.cons_ne_nil _ _, rfl, fun depth after deep alike => ?_⟩
  obtain ⟨depth, rfl⟩ := Nat.exists_eq_add_of_le' (Nat.le_of_add_left_le deep)
  rw [skimWithin, List.cons_append, same]
  exact always depth after (Nat.le_of_succ_le_succ deep) alike

/-- So is one that a local reader reads. -/
theorem skimmed_scalar {c : Char} {middle rest : List Char} {read : Reader ρ Unit}
    (peeking : Peeking read)
    (same : ∀ (inner : Reader ρ Unit) text, skimWith inner (c :: text) = read text)
    (done : skimWith skim (c :: middle) = .ok ((), rest)) :
    Skimmed (skimWithin : Nat → Reader ρ Unit) (c :: middle) rest := by
  rw [same] at done
  obtain ⟨taken, rfl, always⟩ := peeking done
  exact skimmed_cons (fun _ => read) (fun depth text => same _ text) fun _ after _ => always after

/-- A numeral is passed over again from its first digit. -/
theorem skimmed_number {c : Char} {middle rest : List Char}
    (same : ∀ (inner : Reader ρ Unit) text, skimWith inner (c :: text) = skimNumber (c :: text))
    (done : skimWith skim (c :: middle) = .ok ((), rest)) :
    Skimmed (skimWithin : Nat → Reader ρ Unit) (c :: middle) rest := by
  rw [same] at done
  have shorter := advances_skimNumber done
  obtain ⟨taken, split, always⟩ := peeking_skimNumber done
  cases taken with
  | nil =>
    rw [split, List.nil_append] at shorter
    omega
  | cons first others =>
    obtain ⟨rfl, _⟩ := List.cons.inj split
    refine ⟨c :: others, List.cons_ne_nil _ _, split, fun depth after deep alike => ?_⟩
    obtain ⟨depth, rfl⟩ := Nat.exists_eq_add_of_le' (Nat.le_of_add_left_le deep)
    rw [skimWithin, List.cons_append, same, ← List.cons_append, always after alike]

/-- **Skimming is local**, and a value needs no more depth than it has characters. -/
theorem skimmedBy_skimWithin (depth : Nat) :
    SkimmedBy skimWithin (skimWithin depth : Reader ρ Unit) := by
  induction depth with
  | zero =>
    intro text rest done
    cases done
  | succ depth ih =>
    intro text rest done
    rw [skimWithin] at done
    cases dropped : dropJsonBlank text with
    | nil =>
      unfold skimWith at done
      rw [dropped] at done
      cases done
    | cons c middle =>
      obtain ⟨blanks, blank, solid, rfl⟩ := exists_blanks dropped
      rw [skimWith_blanks blank] at done
      -- It is enough to begin with the first character that is no blank.
      suffices Skimmed (skimWithin : Nat → Reader ρ Unit) (c :: middle) rest by
        obtain ⟨taken, some, split, always⟩ := this
        refine ⟨blanks ++ taken, by simp [some], by rw [split, List.append_assoc],
          fun depth after deep alike => ?_⟩
        rw [List.length_append] at deep
        obtain ⟨depth, rfl⟩ := Nat.exists_eq_add_of_le'
          (Nat.le_trans (List.length_pos_iff.mpr some) (Nat.le_of_add_left_le deep))
        rw [List.append_assoc, skimWithin, skimWith_blanks blank, ← skimWithin]
        exact always (depth + 1) after (Nat.le_of_add_left_le deep) alike
      have whole := done
      unfold skimWith at done
      rw [dropJsonBlank_of_solid solid] at done
      dsimp only at done
      split at done
      · rename_i first
        subst first
        exact skimmed_scalar (peeking_readWord ['u', 'l', 'l']) (fun _ _ => rfl) whole
      rename_i noNull
      split at done
      · rename_i first
        subst first
        exact skimmed_scalar (peeking_readWord ['r', 'u', 'e']) (fun _ _ => rfl) whole
      rename_i noTrue
      split at done
      · rename_i first
        subst first
        exact skimmed_scalar (peeking_readWord ['a', 'l', 's', 'e']) (fun _ _ => rfl) whole
      rename_i noFalse
      split at done
      · rename_i first
        subst first
        exact skimmed_scalar delimited_skimString.peeking (fun _ _ => rfl) whole
      rename_i noQuote
      split at done
      · rename_i first
        subst first
        exact skimmed_scalar peeking_skimNumber (fun _ _ => rfl) whole
      rename_i noMinus
      split at done
      · rename_i digit
        refine skimmed_number (fun inner text => ?_) whole
        unfold skimWith
        rw [dropJsonBlank_of_solid solid]
        dsimp only
        rw [if_neg noNull, if_neg noTrue, if_neg noFalse, if_neg noQuote, if_neg noMinus, if_pos digit]
      split at done
      · rename_i first
        subst first
        obtain ⟨taken, _, rfl, always⟩ := skimmedBy_skimItems ih done
        exact skimmed_cons (fun depth => skimItems (skimWithin depth)) (fun _ _ => rfl) always
      split at done
      · rename_i first
        subst first
        obtain ⟨taken, _, rfl, always⟩ := skimmedBy_skimMembers ih done
        exact skimmed_cons (fun depth => skimMembers (skimWithin depth)) (fun _ _ => rfl) always
      · cases done

theorem peeking_skimValue : Peeking (skimValue : Reader ρ Unit) := by
  intro text value rest done
  obtain ⟨taken, _, rfl, always⟩ := skimmedBy_skimWithin _ done
  refine ⟨taken, rfl, fun after alike => ?_⟩
  exact always _ after (by rw [List.length_append]; omega) alike

end Values

end Mixin.Json
