/-
**A sequence that cannot be read says on which line.**

A bare sequence fails at its first declaration that cannot be read.  What stands before it can be taken
apart into texts of declarations with blanks between them, and what is left begins with no text of a
declaration.  The line is that of the first character left that is not blank in the wide sense, which
need not be the character at which the reading failed.

The line is found by counting line breaks in characters.  Cutting the text at bytes instead, at the one
where the reading of the declaration began and at the one where its blanks end, finds the same line:
both bytes are the first of a character or the end of the text.

* `Spells`, `Listed`, `Unreadable`, `FirstOnLine` — the parts of a text that cannot be read.
* `listed_of_fault`, `readFrom_of_listed` — a reading that fails has taken what is listed before the
  fault, and what is listed can be taken.
* `firstOnLine_iff` — the line by its characters.
* `cutAt?`, `lineAt?` — cutting at bytes; `lineAt?_append`: the line by its bytes.
* **`fault_located`** — when a line is reported, what stands in the text, and that its bytes can be cut.
-/

import Mixin.Proofs.Declaration.Concatenation

namespace Mixin

namespace Stream

open Json (Blanks exists_blanks dropJsonBlank_of_blanks dropJsonBlank_of_solid)
open Text (dropJsonBlank trimStart)

/-! ### The parts of a text -/

/-- The text of a declaration: no blank stands before it, and reading it leaves nothing. -/
structure Spells (text : List Char) (d : Declaration) : Prop where
  solid : dropJsonBlank text = text
  reads : Declaration.read Declaration.statementDepth text = .ok (d, [])

/-- Texts of declarations one after the other, each behind blanks, if there are any. -/
inductive Listed : List Char → List Declaration → Prop
  | nil : Listed [] []
  | cons {blanks taken more : List Char} {d : Declaration} {ds : List Declaration} :
      Blanks blanks → Spells taken d → Listed more ds → Listed (blanks ++ (taken ++ more)) (d :: ds)

/-- Behind its blanks the text goes on, and not with the text of a declaration. -/
structure Unreadable (text : List Char) : Prop where
  goesOn : dropJsonBlank text ≠ []
  unspelt : ∀ taken after d, dropJsonBlank text = taken ++ after → ¬ Spells taken d

/-- The first character of `rest` that is not blank in the wide sense, or the end of the text if there
is none, stands on the line; the text is `before` and then `rest`. -/
def FirstOnLine (before rest : List Char) (line : Nat) : Prop :=
  ∃ skipped left, rest = skipped ++ left ∧ (∀ c ∈ skipped, Text.isBlank c = true) ∧
    (∀ c ∈ left.head?, Text.isBlank c = false) ∧ line = 1 + (before ++ skipped).count '\n'

/-! ### Texts of declarations -/

section Texts

variable {text taken rest : List Char} {d : Declaration}

/-- The text of a declaration is read alike in front of any text. -/
theorem Spells.append (spells : Spells taken d) (after : List Char) :
    Declaration.read Declaration.statementDepth (taken ++ after) = .ok (d, after) := by
  obtain ⟨all, _, split, always⟩ := Declaration.delimited_read _ spells.reads
  rw [split, List.append_nil]
  exact always after

/-- The text of a declaration begins with a character that is no blank. -/
theorem Spells.exists_cons (spells : Spells taken d) :
    ∃ c start, taken = c :: start ∧ Text.isJsonBlank c = false := by
  cases dropped : dropJsonBlank taken with
  | nil =>
    obtain ⟨all, some, split, _⟩ := Declaration.delimited_read _ spells.reads
    rw [← spells.solid, dropped] at split
    exact absurd (List.append_eq_nil_iff.mp split.symm).1 some
  | cons c start =>
    obtain ⟨_, _, solid, _⟩ := exists_blanks dropped
    exact ⟨c, start, spells.solid.symm.trans dropped, solid⟩

/-- **What a reader takes for a declaration** is the text of one. -/
theorem exists_spells {c : Char} {start : List Char} (solid : Text.isJsonBlank c = false)
    (done : Declaration.read Declaration.statementDepth (c :: start) = .ok (d, rest)) :
    ∃ taken, c :: start = taken ++ rest ∧ Spells taken d := by
  obtain ⟨taken, some, split, always⟩ := Declaration.delimited_read _ done
  refine ⟨taken, split, ?_, by simpa using always []⟩
  cases taken with
  | nil => exact absurd rfl some
  | cons first others =>
    obtain ⟨rfl, _⟩ := List.cons.inj split
    exact dropJsonBlank_of_solid solid others

/-- **A text is unreadable** when something is left behind its blanks at which reading fails. -/
theorem unreadable_iff :
    Unreadable text ↔ ∃ c start fault, dropJsonBlank text = c :: start ∧
      Declaration.read Declaration.statementDepth (c :: start) = .error fault := by
  constructor
  · rintro ⟨goesOn, unspelt⟩
    obtain ⟨c, start, dropped⟩ := List.exists_cons_of_ne_nil goesOn
    obtain ⟨_, _, solid, _⟩ := exists_blanks dropped
    cases read : Declaration.read Declaration.statementDepth (c :: start) with
    | error fault => exact ⟨c, start, fault, dropped, read⟩
    | ok found =>
      obtain ⟨taken, split, spells⟩ := exists_spells solid read
      exact absurd spells (unspelt taken found.2 found.1 (dropped.trans split))
  · rintro ⟨c, start, fault, dropped, failed⟩
    refine ⟨by simp [dropped], fun taken after d split spells => ?_⟩
    rw [← dropped, split, spells.append] at failed
    cases failed

end Texts

/-! ### Where a sequence fails -/

section Faults

/-- **What is listed is read.** -/
theorem readFrom_of_listed {text : List Char} {ds : List Declaration} (listed : Listed text ds) :
    readFrom text.length text = .ok ds := by
  induction listed with
  | nil => rfl
  | @cons blanks taken more d ds blank spells _ ih =>
    obtain ⟨c, start, rfl, solid⟩ := spells.exists_cons
    have dropped : dropJsonBlank (blanks ++ (c :: start ++ more)) = c :: (start ++ more) := by
      rw [dropJsonBlank_of_blanks blank, List.cons_append, dropJsonBlank_of_solid solid]
    have size : (blanks ++ (c :: start ++ more)).length =
        blanks.length + start.length + more.length + 1 := by
      simp only [List.length_append, List.length_cons]
      omega
    rw [size, readFrom_of_read _ dropped (spells.append more),
      readFrom_enough _ more.length more (by omega) (Nat.le_refl _), ih]
    rfl

/-- **A reading that fails** has taken the declarations listed before the fault. -/
theorem listed_of_fault (steps : Nat) :
    ∀ {text failing : List Char} {fault : Fault Rejection},
      readFrom steps text = .error (failing, fault) →
      ∃ before rest ds, text = before ++ rest ∧ Listed before ds ∧ dropJsonBlank rest = failing ∧
        Unreadable rest := by
  induction steps with
  | zero =>
    intro text failing fault failed
    cases failed
  | succ steps ih =>
    intro text failing fault failed
    cases dropped : dropJsonBlank text with
    | nil =>
      rw [readFrom_of_blanks _ (List.dropWhile_eq_nil_iff.mp dropped)] at failed
      cases failed
    | cons c start =>
      cases read : Declaration.read Declaration.statementDepth (c :: start) with
      | error found =>
        rw [readFrom_of_fault _ dropped read] at failed
        cases failed
        exact ⟨[], text, [], rfl, .nil, dropped, unreadable_iff.mpr ⟨c, start, fault, dropped, read⟩⟩
      | ok found =>
        obtain ⟨d, behind⟩ := found
        rw [readFrom_of_read _ dropped read] at failed
        cases later : readFrom steps behind with
        | ok others =>
          rw [later] at failed
          cases failed
        | error found =>
          rw [later] at failed
          cases failed
          obtain ⟨blanks, blank, solid, rfl⟩ := exists_blanks dropped
          obtain ⟨taken, split, spells⟩ := exists_spells solid read
          obtain ⟨before, rest, ds, rfl, listed, fails, unreadable⟩ := ih later
          exact ⟨blanks ++ (taken ++ before), rest, d :: ds, by simp [split],
            .cons blank spells listed, fails, unreadable⟩

end Faults

/-! ### Lines by characters -/

section Lines

variable {before rest : List Char} {line : Nat}

/-- **The line of a fault by its characters.** -/
theorem firstOnLine_iff : FirstOnLine before rest line ↔ line = lineOf (before ++ rest) rest := by
  have counted : ∀ skipped left : List Char, lineBreaks (before ++ (skipped ++ left)) =
      (before ++ skipped).count '\n' + lineBreaks left := by
    intro skipped left
    rw [← List.append_assoc]
    exact List.count_append
  unfold lineOf
  constructor
  · rintro ⟨skipped, left, rfl, blank, solid, rfl⟩
    have trimmed : trimStart (skipped ++ left) = left := by
      unfold trimStart
      rw [List.dropWhile_append_of_pos blank]
      cases left with
      | nil => rfl
      | cons c others => exact List.dropWhile_cons_of_neg (by simp [solid c rfl])
    rw [trimmed, counted, Nat.add_sub_cancel]
  · rintro rfl
    refine ⟨rest.takeWhile Text.isBlank, trimStart rest, List.takeWhile_append_dropWhile.symm,
      List.all_eq_true.mp List.all_takeWhile, fun c first => ?_, ?_⟩
    · have head := List.head?_dropWhile_not Text.isBlank rest
      rw [show (rest.dropWhile Text.isBlank).head? = some c from first] at head
      simpa using head
    · have sum := counted (rest.takeWhile Text.isBlank) (trimStart rest)
      rw [show rest.takeWhile Text.isBlank ++ trimStart rest = rest from
        List.takeWhile_append_dropWhile] at sum
      rw [sum, Nat.add_sub_cancel]

/-- The blanks of the grammar at the beginning make no difference to the line. -/
theorem lineOf_dropJsonBlank (text rest : List Char) :
    lineOf text (dropJsonBlank rest) = lineOf text rest := by
  unfold lineOf
  rw [Text.trimStart_dropJsonBlank]

end Lines

/-! ### Lines by bytes -/

section Bytes

/-- Cuts a text before a byte.  Beyond the end of the text and inside a character there is no cut. -/
def cutAt? (text : String) (offset : Nat) : Option (String × String) :=
  if valid : String.Pos.Raw.IsValid text ⟨offset⟩ then
    let place : text.Pos := ⟨⟨offset⟩, valid⟩
    some ((text.sliceTo place).copy, (text.sliceFrom place).copy)
  else none

/-- The line of the first character that is not blank at a byte or behind it, by two cuts: one there,
and one where the blanks end. -/
def lineAt? (text : String) (offset : Nat) : Option Nat := do
  let (_, rest) ← cutAt? text offset
  let trimmed := String.ofList (trimStart rest.toList)
  let (front, _) ← cutAt? text (offset + (rest.utf8ByteSize - trimmed.utf8ByteSize))
  some (lineBreaks front.toList + 1)

/-- The byte at which the reading of a declaration began that failed. -/
def faultOffset? (text : String) : Option Nat :=
  match readFrom text.toList.length text.toList with
  | .ok _ => none
  | .error (failing, _) => some (text.utf8ByteSize - (String.ofList failing).utf8ByteSize)

/-- A text can be cut where one of its parts ends. -/
theorem cutAt?_append (front back : String) :
    cutAt? (front ++ back) front.utf8ByteSize = some (front, back) := by
  have valid : String.Pos.Raw.IsValid (front ++ back) ⟨front.utf8ByteSize⟩ :=
    String.Pos.Raw.isValid_iff_exists_append.mpr ⟨front, back, rfl, rfl⟩
  have splits : String.Pos.Splits ⟨⟨front.utf8ByteSize⟩, valid⟩ front back := ⟨rfl, rfl⟩
  unfold cutAt?
  rw [dif_pos valid]
  simp only [splits.copy_sliceTo_eq, splits.copy_sliceFrom_eq]

/-- **The line of a fault by its bytes** is its line by characters. -/
theorem lineAt?_append (front rest : String) :
    lineAt? (front ++ rest) front.utf8ByteSize =
      some (lineOf (front ++ rest).toList rest.toList) := by
  -- The second cut falls behind the blanks with which `rest` begins.
  let skipped := String.ofList (rest.toList.takeWhile Text.isBlank)
  let trimmed := String.ofList (trimStart rest.toList)
  have parts : skipped ++ trimmed = rest := by
    rw [← String.ofList_append, show rest.toList.takeWhile Text.isBlank ++ trimStart rest.toList =
      rest.toList from List.takeWhile_append_dropWhile, String.ofList_toList]
  have start : front.utf8ByteSize + (rest.utf8ByteSize - trimmed.utf8ByteSize) =
      (front ++ skipped).utf8ByteSize := by
    rw [String.utf8ByteSize_append, ← parts, String.utf8ByteSize_append]
    omega
  have second : cutAt? (front ++ rest) (front ++ skipped).utf8ByteSize =
      some (front ++ skipped, trimmed) := by
    have again := cutAt?_append (front ++ skipped) trimmed
    rwa [String.append_assoc, parts] at again
  have characters : (front ++ rest).toList = (front ++ skipped).toList ++ trimStart rest.toList := by
    rw [← String.toList_ofList (l := trimStart rest.toList), ← String.toList_append,
      String.append_assoc, parts]
  have breaks : lineBreaks (front ++ rest).toList =
      lineBreaks (front ++ skipped).toList + lineBreaks (trimStart rest.toList) := by
    rw [characters]
    exact List.count_append
  unfold lineAt?
  rw [cutAt?_append]
  show (cutAt? (front ++ rest)
    (front.utf8ByteSize + (rest.utf8ByteSize - trimmed.utf8ByteSize)) >>= _) = _
  rw [start, second]
  show some (lineBreaks (front ++ skipped).toList + 1) = _
  rw [lineOf, breaks, Nat.add_sub_cancel, Nat.add_comm]

/-- **The bytes of a fault can be cut**, and the cuts find its line. -/
theorem faultOffset?_of_fault {text : String} {failing : List Char} {fault : Fault Rejection}
    (failed : readFrom text.toList.length text.toList = .error (failing, fault)) :
    ∃ offset, faultOffset? text = some offset ∧ String.Pos.Raw.IsValid text ⟨offset⟩ ∧
      lineAt? text offset = some (lineOf text.toList failing) := by
  obtain ⟨front, split⟩ := readFrom_error_suffix _ failed
  have parts : String.ofList front ++ String.ofList failing = text := by
    rw [← String.ofList_append, split, String.ofList_toList]
  have size : text.utf8ByteSize - (String.ofList failing).utf8ByteSize =
      (String.ofList front).utf8ByteSize := by
    rw [← parts, String.utf8ByteSize_append, Nat.add_sub_cancel]
  refine ⟨(String.ofList front).utf8ByteSize, ?_, ?_, ?_⟩
  · unfold faultOffset?
    rw [failed]
    exact congrArg some size
  · exact String.Pos.Raw.isValid_iff_exists_append.mpr
      ⟨String.ofList front, String.ofList failing, parts.symm, rfl⟩
  · have line := lineAt?_append (String.ofList front) (String.ofList failing)
    rwa [parts, String.toList_ofList] at line

end Bytes

/-! ### Streams -/

section Reports

/-- A bare sequence in which a declaration cannot be read is refused with the line of this
declaration, and with nothing else. -/
theorem context_iff_fault {text : String} (bare : isArray text.toList = false) {line : Nat} :
    (∃ error, parse text = .error error ∧
      error.context = "Unable to parse class declaration starting on line " ++ toString line) ↔
      ∃ failing fault, readFrom text.toList.length text.toList = .error (failing, fault) ∧
        line = lineOf text.toList failing := by
  simp only [Error.context_eq_iff]
  rw [parse_of_not_isArray bare, readSequence]
  cases read : readFrom text.toList.length text.toList with
  | ok ds =>
    constructor
    · rintro ⟨error, failed, fault, rfl⟩
      dsimp only [bind, Except.bind] at failed
      split at failed <;> cases failed
    · rintro ⟨failing, fault, failed, -⟩
      cases failed
  | error found =>
    obtain ⟨failing, fault⟩ := found
    constructor
    · rintro ⟨error, failed, other, rfl⟩
      cases failed
      exact ⟨failing, fault, rfl, rfl⟩
    · rintro ⟨other, why, failed, rfl⟩
      cases failed
      exact ⟨_, rfl, fault, rfl⟩

/-- **Where a sequence cannot be read.**  Let a text be a bare sequence.

* It is refused with a line exactly when it is texts of declarations, if any, each behind blanks, if
  any, and then a rest that goes on behind its blanks but with no text of a declaration; and the line
  is one more than the line breaks before the first character of the rest that is not blank in the wide
  sense, or before the end of the text.
* Then the byte at which the reading of the declaration began is no later than the end of the text and
  not inside a character, and the line can be found by cutting the text there. -/
theorem fault_located (text : String) (bare : (trimStart text.toList).head? ≠ some '[') (line : Nat) :
    ((∃ error, parse text = .error error ∧
        error.context = "Unable to parse class declaration starting on line " ++ toString line) ↔
      ∃ before rest ds, text.toList = before ++ rest ∧ Listed before ds ∧ Unreadable rest ∧
        FirstOnLine before rest line) ∧
    ∀ error, parse text = .error error →
      error.context = "Unable to parse class declaration starting on line " ++ toString line →
      ∃ offset, faultOffset? text = some offset ∧ offset ≤ text.utf8ByteSize ∧
        String.Pos.Raw.IsValid text ⟨offset⟩ ∧ lineAt? text offset = some line := by
  have sequence := isArray_eq_false_iff.mpr bare
  rw [context_iff_fault sequence]
  refine ⟨⟨?_, ?_⟩, fun error failed words => ?_⟩
  · rintro ⟨failing, fault, failed, rfl⟩
    obtain ⟨before, rest, ds, split, listed, rfl, unreadable⟩ := listed_of_fault _ failed
    refine ⟨before, rest, ds, split, listed, unreadable, firstOnLine_iff.mpr ?_⟩
    rw [split, lineOf_dropJsonBlank]
  · rintro ⟨before, rest, ds, split, listed, unreadable, first⟩
    obtain ⟨c, start, fault, dropped, failed⟩ := unreadable_iff.mp unreadable
    have stops : readFrom rest.length rest = .error (c :: start, fault) := by
      rw [readFrom_enough _ (rest.length + 1) _ (Nat.le_refl _) (Nat.le_succ _),
        readFrom_of_fault _ dropped failed]
    refine ⟨c :: start, fault, ?_, ?_⟩
    · rw [split, readFrom_append _ (Nat.le_refl _) (readFrom_of_listed listed)
        (Nat.le_of_eq List.length_append.symm), stops]
      rfl
    · rw [firstOnLine_iff.mp first, split, ← dropped, lineOf_dropJsonBlank]
  · obtain ⟨failing, fault, stopped, rfl⟩ := (context_iff_fault sequence).mp ⟨error, failed, words⟩
    obtain ⟨offset, found, valid, cut⟩ := faultOffset?_of_fault stopped
    exact ⟨offset, found, valid.le_utf8ByteSize, valid, cut⟩

/-- A declaration, on the next line a blank that the grammar does not know, which takes two bytes, and
on the third line another declaration. -/
def strayBlank : String := "\x7b\x7d\n\u00a0\n[\"A\"]"

/-- The reading fails at the blank on the second line; the third line is the one reported. -/
theorem strayBlank_located :
    (∃ before rest ds, strayBlank.toList = before ++ rest ∧ Listed before ds ∧ Unreadable rest ∧
      FirstOnLine before rest 3) ∧
    ∃ offset, faultOffset? strayBlank = some offset ∧ offset ≤ strayBlank.utf8ByteSize ∧
      String.Pos.Raw.IsValid strayBlank ⟨offset⟩ ∧ lineAt? strayBlank offset = some 3 := by
  have failed : parse strayBlank = .error (.declaration 3 (.malformed .expectedValue 7)) := by
    decide +kernel
  have located := fault_located strayBlank (by decide) 3
  exact ⟨located.1.mp ⟨_, failed, rfl⟩, located.2 _ failed rfl⟩

end Reports

end Stream

end Mixin
