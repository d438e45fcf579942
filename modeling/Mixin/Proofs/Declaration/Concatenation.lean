/-
**Streams may be written one after the other.**

A bare sequence of declarations in front of any text is read as its declarations, and then as that text
is read: declarations are delimited, so none of them looks at what comes after it, and the blanks after
the last one belong to the text.  A fault in that text is the same fault, on a later line.

* `readFrom_enough`, `readFrom_append` — how many steps are given makes no difference if they are
  enough, and reading goes on after a sequence.
* `readSequence_append` — the same with the lines of faults.
* **`parse_append`** — whole streams.
-/

import Mathlib.Data.List.TakeWhile
import Mixin.Proofs.Declaration.Framing
import Mixin.Proofs.Declaration.Locality

namespace Mixin

namespace Stream

open Json (Blanks exists_blanks dropJsonBlank_again dropJsonBlank_of_blanks
  dropJsonBlank_of_solid)
open Text (dropJsonBlank trimStart)

/-! ### One declaration -/

section Steps

variable {text start rest : List Char} {c : Char} {d : Declaration} {fault : Fault Rejection}

theorem readFrom_blanks_append (steps : Nat) (blank : Blanks text) (more : List Char) :
    readFrom steps (text ++ more) = readFrom steps more := by
  cases steps with
  | zero => rfl
  | succ steps => rw [readFrom, readFrom, dropJsonBlank_of_blanks blank]

theorem readFrom_of_blanks (steps : Nat) (blank : Blanks text) : readFrom steps text = .ok [] := by
  rw [← List.append_nil text, readFrom_blanks_append steps blank]
  cases steps <;> rfl

theorem readFrom_of_fault (steps : Nat) (dropped : dropJsonBlank text = c :: start)
    (failed : Declaration.read Declaration.statementDepth (c :: start) = .error fault) :
    readFrom (steps + 1) text = .error (c :: start, fault) := by
  rw [readFrom, dropped]
  dsimp only
  rw [failed]

theorem readFrom_of_read (steps : Nat) (dropped : dropJsonBlank text = c :: start)
    (done : Declaration.read Declaration.statementDepth (c :: start) = .ok (d, rest)) :
    readFrom (steps + 1) text = (d :: ·) <$> readFrom steps rest := by
  rw [readFrom, dropped]
  dsimp only
  rw [done]
  show (readFrom steps rest >>= _) = _
  cases readFrom steps rest <;> rfl

/-- A declaration leaves fewer characters than there were before its blanks. -/
theorem length_lt_of_read (dropped : dropJsonBlank text = c :: start)
    (done : Declaration.read Declaration.statementDepth (c :: start) = .ok (d, rest)) :
    rest.length < text.length := by
  obtain ⟨blanks, _, _, rfl⟩ := exists_blanks dropped
  have shorter := (Declaration.delimited_read _).advances done
  rw [List.length_append]
  omega

/-- A declaration and the blanks before it are read alike in front of more text. -/
theorem read_append (dropped : dropJsonBlank text = c :: start)
    (done : Declaration.read Declaration.statementDepth (c :: start) = .ok (d, rest))
    (more : List Char) :
    dropJsonBlank (text ++ more) = c :: (start ++ more) ∧
      Declaration.read Declaration.statementDepth (c :: (start ++ more)) = .ok (d, rest ++ more) := by
  obtain ⟨blanks, rfl, always⟩ := dropJsonBlank_again dropped
  obtain ⟨taken, _, split, again⟩ := Declaration.delimited_read _ done
  constructor
  · rw [List.append_assoc, List.cons_append, always]
  · rw [← List.cons_append, split, List.append_assoc, again]

end Steps

/-! ### Reading on after a sequence -/

section Sequences

/-- Any number of steps that is enough for a text does the same. -/
theorem readFrom_enough (steps : Nat) :
    ∀ (size : Nat) (text : List Char), text.length ≤ steps → text.length ≤ size →
      readFrom steps text = readFrom size text := by
  induction steps with
  | zero =>
    intro size text none _
    obtain rfl := List.eq_nil_of_length_eq_zero (Nat.le_zero.mp none)
    cases size <;> rfl
  | succ steps ih =>
    intro size text enough enoughSize
    cases dropped : dropJsonBlank text with
    | nil =>
      have blank := List.dropWhile_eq_nil_iff.mp dropped
      rw [readFrom_of_blanks _ blank, readFrom_of_blanks _ blank]
    | cons c start =>
      obtain ⟨blanks, _, _, rfl⟩ := exists_blanks dropped
      obtain ⟨size, rfl⟩ : ∃ more, size = more + 1 := by
        refine Nat.exists_eq_add_of_le' ?_
        simp only [List.length_append, List.length_cons] at enoughSize
        omega
      cases done : Declaration.read Declaration.statementDepth (c :: start) with
      | error fault => rw [readFrom_of_fault _ dropped done, readFrom_of_fault _ dropped done]
      | ok found =>
        have shorter := length_lt_of_read dropped done
        rw [readFrom_of_read _ dropped done, readFrom_of_read _ dropped done,
          ih size found.2 (by omega) (by omega)]

/-- **Reading goes on after a sequence** as it begins with what follows the sequence. -/
theorem readFrom_append (steps : Nat) :
    ∀ {text : List Char} {ds : List Declaration}, text.length ≤ steps →
      readFrom steps text = .ok ds →
      ∀ {size : Nat} {more : List Char}, text.length + more.length ≤ size →
        readFrom size (text ++ more) = (ds ++ ·) <$> readFrom more.length more := by
  induction steps with
  | zero =>
    intro text ds none done size more enough
    obtain rfl := List.eq_nil_of_length_eq_zero (Nat.le_zero.mp none)
    cases done
    rw [List.nil_append, readFrom_enough size more.length more (by omega) (Nat.le_refl _)]
    exact (id_map _).symm
  | succ steps ih =>
    intro text ds enough done size more enoughSize
    cases dropped : dropJsonBlank text with
    | nil =>
      have blank := List.dropWhile_eq_nil_iff.mp dropped
      rw [readFrom_of_blanks _ blank] at done
      cases done
      rw [readFrom_blanks_append _ blank,
        readFrom_enough size more.length more (by omega) (Nat.le_refl _)]
      exact (id_map _).symm
    | cons c start =>
      cases read : Declaration.read Declaration.statementDepth (c :: start) with
      | error fault =>
        rw [readFrom_of_fault _ dropped read] at done
        cases done
      | ok found =>
        obtain ⟨d, rest⟩ := found
        have shorter := length_lt_of_read dropped read
        obtain ⟨size, rfl⟩ := Nat.exists_eq_add_of_le' (show 1 ≤ size by omega)
        obtain ⟨droppedMore, readMore⟩ := read_append dropped read more
        rw [readFrom_of_read _ dropped read] at done
        cases after : readFrom steps rest with
        | error found =>
          rw [after] at done
          cases done
        | ok others =>
          rw [after] at done
          cases done
          rw [readFrom_of_read _ droppedMore readMore, ih (by omega) after (by omega)]
          cases readFrom more.length more <;> rfl

/-- A declaration that cannot be read begins somewhere in the text. -/
theorem readFrom_error_suffix (steps : Nat) :
    ∀ {text rest : List Char} {fault : Fault Rejection},
      readFrom steps text = .error (rest, fault) → rest <:+ text := by
  induction steps with
  | zero =>
    intro text rest fault failed
    cases failed
  | succ steps ih =>
    intro text rest fault failed
    cases dropped : dropJsonBlank text with
    | nil =>
      rw [readFrom_of_blanks _ (List.dropWhile_eq_nil_iff.mp dropped)] at failed
      cases failed
    | cons c start =>
      have within : c :: start <:+ text := by
        rw [← dropped]
        exact List.dropWhile_suffix _
      cases read : Declaration.read Declaration.statementDepth (c :: start) with
      | error found =>
        rw [readFrom_of_fault _ dropped read] at failed
        cases failed
        exact within
      | ok found =>
        obtain ⟨d, behind⟩ := found
        rw [readFrom_of_read _ dropped read] at failed
        cases later : readFrom steps behind with
        | ok others =>
          rw [later] at failed
          cases failed
        | error found =>
          rw [later] at failed
          cases failed
          obtain ⟨taken, _, split, _⟩ := Declaration.delimited_read _ read
          rw [split] at within
          exact (ih later).trans ((List.suffix_append taken behind).trans within)

end Sequences

/-! ### Lines -/

section Lines

/-- The same error in a text that begins some lines later. -/
def Error.below (lines : Nat) : Error → Error
  | declaration line fault => declaration (line + lines) fault
  | other => other

theorem lineBreaks_trimStart_le {text rest : List Char} (within : rest <:+ text) :
    lineBreaks (trimStart rest) ≤ lineBreaks text :=
  ((List.dropWhile_suffix _).trans within).sublist.count_le '\n'

/-- A text in front moves a line down by its line breaks. -/
theorem lineOf_append {text rest : List Char} (front : List Char) (within : rest <:+ text) :
    lineOf (front ++ text) rest = lineOf text rest + lineBreaks front := by
  have fewer := lineBreaks_trimStart_le within
  have sum : lineBreaks (front ++ text) = lineBreaks front + lineBreaks text := List.count_append
  unfold lineOf
  omega

theorem readFrom_of_readSequence {text : List Char} {ds : List Declaration}
    (done : readSequence text = .ok ds) : readFrom text.length text = .ok ds := by
  unfold readSequence at done
  split at done
  · rename_i found read
    cases done
    exact read
  · cases done

/-- **A sequence in front of a text** adds its declarations, or its lines to the line of an error. -/
theorem readSequence_append {text : List Char} {ds : List Declaration}
    (done : readSequence text = .ok ds) (more : List Char) :
    readSequence (text ++ more) =
      (ds ++ ·) <$> (readSequence more).mapError (Error.below (lineBreaks text)) := by
  have first := readFrom_of_readSequence done
  unfold readSequence
  rw [readFrom_append _ (Nat.le_refl _) first (Nat.le_of_eq List.length_append.symm)]
  cases second : readFrom more.length more with
  | ok others => rfl
  | error found =>
    obtain ⟨rest, fault⟩ := found
    show Except.error (Error.declaration (lineOf (text ++ more) rest) fault) = _
    rw [lineOf_append text (readFrom_error_suffix _ second)]
    rfl

/-- The words for a declaration that cannot be read name its line, and no other error has them. -/
theorem Error.context_eq_iff {error : Error} {line : Nat} :
    error.context = "Unable to parse class declaration starting on line " ++ toString line ↔
      ∃ fault, error = .declaration line fault := by
  constructor
  · intro same
    cases error with
    | array fault =>
      have letters := congrArg (fun words => words.toList[16]?) same
      dsimp only [context] at letters
      rw [String.toList_append, List.getElem?_append_left (by decide)] at letters
      exact absurd letters (by decide)
    | declaration found fault =>
      have words : toString found = toString line := (String.append_right_inj _).mp same
      rw [Nat.toString_eq_ofList_toDigits, Nat.toString_eq_ofList_toDigits, String.ofList_inj] at words
      have lines := congrArg (fun digits => Nat.ofDigitChars 10 digits 0) words
      simp only [Nat.ofDigitChars_ten_toDigits] at lines
      exact ⟨fault, by rw [lines]⟩
    | empty =>
      have letters := congrArg (fun words => words.toList[0]?) same
      dsimp only [context] at letters
      rw [String.toList_append, List.getElem?_append_left (by decide)] at letters
      exact absurd letters (by decide)
  · rintro ⟨fault, rfl⟩
    rfl

end Lines

/-! ### Whole streams -/

section Streams

theorem isArray_eq_false_iff {text : List Char} :
    isArray text = false ↔ (trimStart text).head? ≠ some '[' := by
  unfold isArray
  cases trimStart text with
  | nil => simp
  | cons c rest => by_cases bracket : c = '[' <;> simp [bracket]

theorem parse_of_not_isArray {text : String} (bare : isArray text.toList = false) :
    parse text = readSequence text.toList >>= fun ds =>
      if ds.isEmpty then .error .empty else .ok ds := by
  unfold parse readAll
  rw [bare, if_neg Bool.false_ne_true]

/-- A stream holds at least one declaration. -/
theorem readAll_of_parse {text : String} {ds : List Declaration} (done : parse text = .ok ds) :
    readAll text = .ok ds ∧ ds ≠ [] := by
  obtain ⟨found, read, checked⟩ := bind_eq_ok done
  split at checked
  · cases checked
  · rename_i nonempty
    cases checked
    exact ⟨read, fun none => nonempty (List.isEmpty_iff.mpr none)⟩

theorem readSequence_of_parse {text : String} {ds : List Declaration}
    (bare : isArray text.toList = false) (done : parse text = .ok ds) :
    readSequence text.toList = .ok ds ∧ ds ≠ [] := by
  obtain ⟨read, nonempty⟩ := readAll_of_parse done
  unfold readAll at read
  rw [bare, if_neg Bool.false_ne_true] at read
  exact ⟨read, nonempty⟩

/-- A stream with a declaration in it begins with a character that is no blank, so that what comes
after the stream does not tell its framing. -/
theorem not_isArray_append {text : List Char} {ds : List Declaration} (bare : isArray text = false)
    (done : readSequence text = .ok ds) (nonempty : ds ≠ []) (more : List Char) :
    isArray (text ++ more) = false := by
  have first := readFrom_of_readSequence done
  cases dropped : dropJsonBlank text with
  | nil =>
    rw [readFrom_of_blanks _ (List.dropWhile_eq_nil_iff.mp dropped)] at first
    cases first
    exact absurd rfl nonempty
  | cons c start =>
    obtain ⟨blanks, blank, solid, rfl⟩ := exists_blanks dropped
    cases read : Declaration.read Declaration.statementDepth (c :: start) with
    | error fault =>
      rw [readFrom_enough _ _ _ (Nat.le_refl _) (Nat.le_succ _), readFrom_of_fault _ dropped read] at first
      cases first
    | ok found =>
      have wide : Text.isBlank c = false := Declaration.not_isBlank_of_read solid read
      rw [isArray_eq_false_iff, trimStart_of_dropped dropped wide] at bare
      obtain ⟨droppedMore, _⟩ := read_append dropped read more
      rw [isArray_eq_false_iff, trimStart_of_dropped droppedMore wide]
      exact bare

/-- **Streams may be written one after the other.**  Where two texts are bare sequences and the first
is read, both together are read as the declarations of the first and then those of the second; blanks
after a stream make no difference; and a declaration of the second text that cannot be read is
reported on its line below the lines of the first. -/
theorem parse_append (a b : String) (xs : List Declaration)
    (bareFirst : (trimStart a.toList).head? ≠ some '[')
    (bareSecond : (trimStart b.toList).head? ≠ some '[') (done : parse a = .ok xs) :
    (∀ ys, parse b = .ok ys → parse (a ++ b) = .ok (xs ++ ys)) ∧
      (Blanks b.toList → parse (a ++ b) = .ok xs) ∧
      ∀ line error, parse b = .error error →
        error.context = "Unable to parse class declaration starting on line " ++ toString line →
        ∃ later, parse (a ++ b) = .error later ∧
          later.context = "Unable to parse class declaration starting on line " ++
            toString (line + a.toList.count '\n') ∧
          later.fault? = error.fault? := by
  have bareA := isArray_eq_false_iff.mpr bareFirst
  have bareB := isArray_eq_false_iff.mpr bareSecond
  obtain ⟨first, nonempty⟩ := readSequence_of_parse bareA done
  have bare : isArray (a ++ b).toList = false := by
    rw [String.toList_append]
    exact not_isArray_append bareA first nonempty _
  have together : parse (a ++ b) =
      (xs ++ ·) <$> (readSequence b.toList).mapError (Error.below (lineBreaks a.toList)) := by
    rw [parse_of_not_isArray bare, String.toList_append, readSequence_append first]
    cases readSequence b.toList with
    | error error => rfl
    | ok ys =>
      show (if (xs ++ ys).isEmpty = true then _ else _) = _
      rw [if_neg (by simp [nonempty])]
      rfl
  refine ⟨fun ys second => ?_, fun blank => ?_, fun line error failed words => ?_⟩
  · obtain ⟨read, _⟩ := readSequence_of_parse bareB second
    rw [together, read]
    rfl
  · rw [together, readSequence, readFrom_of_blanks _ blank]
    show Except.ok (xs ++ []) = _
    rw [List.append_nil]
  · obtain ⟨fault, rfl⟩ := Error.context_eq_iff.mp words
    rw [parse_of_not_isArray bareB] at failed
    refine ⟨.declaration (line + lineBreaks a.toList) fault, ?_, rfl, rfl⟩
    cases read : readSequence b.toList with
    | error found =>
      rw [read] at failed
      cases failed
      rw [together, read]
      rfl
    | ok ys =>
      rw [read] at failed
      dsimp only [bind, Except.bind] at failed
      split at failed <;> cases failed

/-- A class on a line of its own. -/
def classLine : String := "\x7b\"name\":\"A\"\x7d\n"

/-- Three declarations without a blank between them, two of them in the list form. -/
def gluedLists : String := "\x7b\x7d[\"B\",\"A\"][\"C\"]"

/-- A declaration, and on the third line one whose parent is no name. -/
def brokenList : String := "\x7b\x7d\n\n[\"B\",[]]"

theorem classLine_before_lists :
    parse (classLine ++ gluedLists) =
        .ok [.named ⟨"A", by decide⟩, { body := [] },
          (Declaration.named ⟨"B", by decide⟩).extending ⟨"A", by decide⟩,
          .named ⟨"C", by decide⟩] ∧
      parse (classLine ++ " \n") = .ok [.named ⟨"A", by decide⟩] ∧
      ∃ later, parse (classLine ++ brokenList) = .error later ∧
        later.context = "Unable to parse class declaration starting on line " ++ toString 4 ∧
        later.fault? = some (.rejected (.mismatch .sequence .text)) := by
  have first : parse classLine = .ok [.named ⟨"A", by decide⟩] := by decide +kernel
  have lists : parse gluedLists =
      .ok [{ body := [] }, (Declaration.named ⟨"B", by decide⟩).extending ⟨"A", by decide⟩,
        .named ⟨"C", by decide⟩] := by decide +kernel
  have broken : parse brokenList =
      .error (.declaration 3 (.rejected (.mismatch .sequence .text))) := by decide +kernel
  exact ⟨(parse_append classLine gluedLists _ (by decide) (by decide) first).1 _ lists,
    (parse_append classLine " \n" _ (by decide) (by decide) first).2.1 (by decide),
    (parse_append classLine brokenList _ (by decide) (by decide) first).2.2 3 _ broken rfl⟩

end Streams

end Stream

end Mixin
