/-
**What is said of a text that is no name.**

A text is refused for the leftmost of its parts that is no segment, and for the first thing wrong with
that part; only a text of no characters is refused for being empty.  The search goes through the parts
and, within a part, through its characters, and stops at the first fault; the diagnosis below says the
same by the places in the text alone.

* `NameFault.message_injective` — no two faults are told in the same words.
* `Flaw part fault` — what is wrong with one part, by the grammar of its characters.
* `Diagnosis bare fault` — what is wrong with a text: nothing in it, or a flaw behind segments only.
* `segmentFault?_eq_some_iff`, `fault?_eq_some_iff` — the searches stop at the flaw and the diagnosis.
* **`refusal_exact`** — the words of a refusal are those of its one diagnosis.
-/

import Mathlib.Logic.ExistsUnique
import Mixin.Proofs.Text.Quoting
import Mixin.Proofs.TypeName.Grammar

namespace Mixin

/-! ### Faults in words -/

namespace NameFault

/-- The last character of the words for a fault. -/
def ending : NameFault → Char
  | .empty => 'y'
  | .emptySegment => 't'
  | .badStart _ => 'e'
  | .badCharacter _ _ => '\x27'

theorem getLast?_message (fault : NameFault) :
    fault.message.toList.getLast? = some fault.ending := by
  cases fault with
  | empty => decide
  | emptySegment => decide
  | badStart segment =>
    rw [message, String.toList_append, List.getLast?_append]
    rfl
  | badCharacter segment found =>
    rw [message, String.toList_append, Text.quotedChar, Text.quoted, String.toList_ofList,
      ← List.append_assoc, List.getLast?_concat]
    rfl

/-- **No two faults are told in the same words.**  The last character tells the kind of fault; what is
named in between is found again, also if a segment imitates the words around it. -/
theorem message_injective : Function.Injective message := by
  intro left right same
  have endings : left.ending = right.ending := by
    have last := congrArg (fun words => words.toList.getLast?) same
    simpa only [getLast?_message, Option.some.injEq] using last
  cases left <;> cases right <;> simp only [ending, Char.reduceEq] at endings
  case empty.empty => rfl
  case emptySegment.emptySegment => rfl
  case badStart.badStart segment other =>
    have named : "segment '" ++ segment = "segment '" ++ other := (String.append_left_inj _).mp same
    rw [(String.append_right_inj _).mp named]
  case badCharacter.badCharacter segment found other otherFound =>
    obtain ⟨words, rfl⟩ := Text.append_quotedChar_inj same
    have named : "segment '" ++ segment = "segment '" ++ other := (String.append_left_inj _).mp words
    rw [(String.append_right_inj _).mp named]

end NameFault

namespace TypeName

/-! ### Diagnoses -/

section Diagnoses

/-- **What is wrong with one part of a text**: it is empty, or its first character starts no segment, or
it starts well and `found` is the first of its characters that continues no segment.  Characters outside
ASCII continue every segment, so that `found` is one of ASCII. -/
inductive Flaw : List Char → NameFault → Prop
  | void : Flaw [] .emptySegment
  | start {first : Char} {rest : List Char} : ¬ Starts first →
      Flaw (first :: rest) (.badStart (String.ofList (first :: rest)))
  | stray {first found : Char} {before after : List Char} : Starts first →
      (∀ c ∈ before, Continues c) → ¬ Continues found → found.toNat < 128 →
      Flaw (first :: (before ++ found :: after))
        (.badCharacter (String.ofList (first :: (before ++ found :: after))) found)

/-- **What is wrong with a text** that has lost its leading separator: it has no characters, or one of
its parts has a flaw and all parts before it are segments. -/
inductive Diagnosis (bare : List Char) : NameFault → Prop
  | empty : bare = [] → Diagnosis bare .empty
  | leftmost {place : Nat} {part : List Char} {fault : NameFault} : bare ≠ [] →
      (bare.splitOn separator)[place]? = some part →
      (∀ earlier ∈ (bare.splitOn separator).take place, Segment earlier) →
      Flaw part fault → Diagnosis bare fault

end Diagnoses

/-! ### The search for a fault -/

section Search

variable {bare part : List Char} {fault : NameFault}

theorem lt_of_not_continues {c : Char} (stray : ¬ Continues c) : c.toNat < 128 :=
  Nat.lt_of_not_le fun wide => stray (.inr (.inr (.inr wide)))

/-- The search within a part stops at the first character that continues no segment. -/
theorem find?_eq_stray_iff {rest : List Char} {found : Char} :
    (rest.find? fun c => !isContinue c) = some found ↔
      ∃ before after, rest = before ++ found :: after ∧ (∀ c ∈ before, Continues c) ∧
        ¬ Continues found := by
  simp only [List.find?_eq_some_iff_append, ← isContinue_iff, Bool.not_not, Bool.not_eq_true',
    Bool.not_eq_true]
  constructor
  · rintro ⟨stray, before, after, cut, passed⟩
    exact ⟨before, after, cut, passed, stray⟩
  · rintro ⟨before, after, cut, passed, stray⟩
    exact ⟨stray, before, after, cut, passed⟩

/-- **The fault found in a part is its flaw.** -/
theorem segmentFault?_eq_some_iff : segmentFault? part = some fault ↔ Flaw part fault := by
  constructor
  · intro found
    cases part with
    | nil =>
      cases found
      exact .void
    | cons first rest =>
      rw [segmentFault?] at found
      split at found
      · rename_i starts
        obtain ⟨bad, search, rfl⟩ := Option.map_eq_some_iff.mp found
        obtain ⟨before, after, rfl, passed, stray⟩ := find?_eq_stray_iff.mp search
        exact .stray (isStart_iff.mp starts) passed stray (lt_of_not_continues stray)
      · rename_i stuck
        cases found
        exact .start fun starts => stuck (isStart_iff.mpr starts)
  · rintro (_ | stuck | ⟨starts, passed, stray, _⟩)
    · rfl
    · rw [segmentFault?, if_neg fun starts => stuck (isStart_iff.mp starts)]
    · rw [segmentFault?, if_pos (isStart_iff.mpr starts),
        find?_eq_stray_iff.mpr ⟨_, _, rfl, passed, stray⟩]
      rfl

/-- **The search stops at the leftmost part with a flaw.** -/
theorem findSome?_segmentFault?_eq_some_iff {parts : List (List Char)} :
    parts.findSome? segmentFault? = some fault ↔
      ∃ place part, parts[place]? = some part ∧
        (∀ earlier ∈ parts.take place, Segment earlier) ∧ Flaw part fault := by
  simp only [List.findSome?_eq_some_iff, segmentFault?_eq_some_iff, segmentFault?_eq_none_iff]
  constructor
  · rintro ⟨before, part, after, rfl, flaw, segments⟩
    refine ⟨before.length, part, ?_, ?_, flaw⟩
    · simp
    · rwa [List.take_left]
  · rintro ⟨place, part, stands, segments, flaw⟩
    obtain ⟨inside, rfl⟩ := List.getElem?_eq_some_iff.mp stands
    exact ⟨parts.take place, parts[place], parts.drop (place + 1), by simp, flaw, segments⟩

/-- **The fault found in a text is its diagnosis.** -/
theorem fault?_eq_some_iff : fault? bare = some fault ↔ Diagnosis bare fault := by
  cases bare with
  | nil =>
    constructor
    · intro found
      cases found
      exact .empty rfl
    · rintro (_ | ⟨filled, _⟩)
      · rfl
      · exact absurd rfl filled
  | cons first rest =>
    rw [fault?, if_neg (by simp), segments_eq_splitOn, findSome?_segmentFault?_eq_some_iff]
    constructor
    · rintro ⟨place, part, stands, segments, flaw⟩
      exact .leftmost (List.cons_ne_nil first rest) stands segments flaw
    · rintro (void | ⟨_, stands, segments, flaw⟩)
      · cases void
      · exact ⟨_, _, stands, segments, flaw⟩

/-- A text is refused with itself and its diagnosis. -/
theorem parse_eq_error_iff {raw : String} {error : InvalidName} :
    parse raw = .error error ↔
      error.raw = raw ∧ Diagnosis (dropSeparator raw.toList) error.fault := by
  rw [← fault?_eq_some_iff]
  unfold parse
  split
  · rename_i fault found
    rw [found, Except.error.injEq, Option.some.injEq]
    constructor
    · rintro rfl
      exact ⟨rfl, rfl⟩
    · rintro ⟨rfl, rfl⟩
      rfl
  · rename_i sound
    simp [sound]

/-- A text has one diagnosis at most. -/
theorem Diagnosis.unique {other : NameFault} (diagnosis : Diagnosis bare fault)
    (second : Diagnosis bare other) : fault = other := by
  rw [← fault?_eq_some_iff] at diagnosis second
  exact Option.some.inj (diagnosis.symm.trans second)

theorem diagnosis_empty_iff : Diagnosis bare .empty ↔ bare = [] := by
  constructor
  · rintro (void | ⟨_, _, _, flaw⟩)
    · exact void
    · cases flaw
  · exact .empty

end Search

/-- **The words of a refusal.**  A text that is refused is given back as it was written.  The reason says
that it is empty exactly if nothing is left of it without a leading separator; it names a part, and a
character of that part, exactly if this is the diagnosis of what is left; and there is one diagnosis, so
that a refused text falls under one of the four reasons and under no two. -/
theorem refusal_exact {raw : String} {error : InvalidName} (refused : parse raw = .error error) :
    let bare := if raw.toList.head? = some separator then raw.toList.tail else raw.toList
    let reason := error.fault.message
    error.raw = raw ∧
      (reason = "is empty" ↔ bare = []) ∧
      (reason = "contains an empty namespace segment" ↔ Diagnosis bare .emptySegment) ∧
      (∀ segment, reason = "segment '" ++ segment ++ "' must start with a letter or underscore" ↔
        Diagnosis bare (.badStart segment)) ∧
      (∀ segment found, reason = "segment '" ++ segment ++ "' contains invalid character " ++
          Text.quotedChar found ↔ Diagnosis bare (.badCharacter segment found)) ∧
      ∃! fault, Diagnosis bare fault := by
  intro bare reason
  obtain ⟨kept, diagnosis⟩ := parse_eq_error_iff.mp refused
  rw [dropSeparator_eq] at diagnosis
  have told : ∀ fault : NameFault, reason = fault.message ↔ Diagnosis bare fault := by
    intro fault
    constructor
    · intro same
      rwa [← NameFault.message_injective same]
    · intro second
      exact congrArg NameFault.message (diagnosis.unique second)
  exact ⟨kept, (told .empty).trans diagnosis_empty_iff, told .emptySegment,
    fun segment => told (.badStart segment), fun segment found => told (.badCharacter segment found),
    error.fault, diagnosis, fun fault second => second.unique diagnosis⟩

/-- Three parts with a fault stand behind a good one.  The first of them is told, with its first stray
character: the letter before it is outside ASCII and no fault, and the empty part comes later. -/
theorem crowded_refusal :
    let raw := "\\App\\caf\u00e9 y-z\\\\9"
    let bare := "App\\caf\u00e9 y-z\\\\9".toList
    parse raw = .error ⟨raw, .badCharacter "caf\u00e9 y-z" ' '⟩ ∧
      (NameFault.badCharacter "caf\u00e9 y-z" ' ').message =
        "segment 'caf\u00e9 y-z' contains invalid character ' '" ∧
      Diagnosis bare (.badCharacter "caf\u00e9 y-z" ' ') ∧ ¬ Diagnosis bare .emptySegment := by
  intro raw bare
  have refused : parse raw = .error ⟨raw, .badCharacter "caf\u00e9 y-z" ' '⟩ :=
    parse_eq_error_iff.mpr ⟨rfl, fault?_eq_some_iff.mp (by decide)⟩
  have words : (NameFault.badCharacter "caf\u00e9 y-z" ' ').message =
      "segment 'caf\u00e9 y-z' contains invalid character ' '" := by decide +kernel
  have stripped : (if raw.toList.head? = some separator then raw.toList.tail else raw.toList) =
      bare := by decide
  obtain ⟨_, _, hollow, _, stray, _⟩ := refusal_exact refused
  rw [stripped] at hollow stray
  refine ⟨refused, words, (stray _ _).mp rfl, fun diagnosis => ?_⟩
  exact absurd (words.symm.trans (hollow.mpr diagnosis)) (by decide)

end TypeName

end Mixin
