/-
**The grammar of names, and their spellings.**

A name is written as one segment or more, joined by single separators, with or without a separator in
front.  Reading cuts the text at the separators and looks for a fault in each part; a text that comes
out without one is a text of the grammar, and every text of the grammar comes out without one.

* `Starts`, `Continues`, `Segment`, `Grammatical` — the grammar, by the ranges of its characters.
* `segments_eq_splitOn` — the parts are those of the standard cut, so that joining undoes it.
* `fault?_eq_none_iff` — no fault is found exactly in the texts of the grammar.
* `parse_eq_ok_iff` — the spellings of a name: its text, and its text behind a separator.
* **`parse_exact`** — what is read, as what, and when two spellings are read as one name.
-/

import Mixin.TypeName

namespace Mixin

namespace TypeName

/-! ### The grammar -/

section Grammar

/-- The letters of ASCII. -/
def Letter (c : Char) : Prop := ('A' ≤ c ∧ c ≤ 'Z') ∨ ('a' ≤ c ∧ c ≤ 'z')

/-- The digits of ASCII. -/
def Digit (c : Char) : Prop := '0' ≤ c ∧ c ≤ '9'

/-- The characters outside ASCII. -/
def Foreign (c : Char) : Prop := 128 ≤ c.toNat

/-- The characters that a segment may start with. -/
def Starts (c : Char) : Prop := Letter c ∨ c = '_' ∨ Foreign c

/-- The characters that a segment may go on with. -/
def Continues (c : Char) : Prop := Letter c ∨ Digit c ∨ c = '_' ∨ Foreign c

/-- A segment: a character that starts one, and characters that continue it. -/
inductive Segment : List Char → Prop
  | intro {first : Char} {rest : List Char} :
      Starts first → (∀ c ∈ rest, Continues c) → Segment (first :: rest)

/-- One segment or more, joined by single separators. -/
def Grammatical (bare : List Char) : Prop :=
  ∃ parts : List (List Char), parts ≠ [] ∧ (∀ part ∈ parts, Segment part) ∧
    bare = [separator].intercalate parts

end Grammar

/-! ### Segments -/

section Segments

theorem isAlpha_iff {c : Char} : c.isAlpha = true ↔ Letter c := by
  change (decide ('A' ≤ c ∧ c ≤ 'Z') || (decide ('a' ≤ c) && decide (c ≤ 'z'))) = true ↔ _
  rw [Bool.or_eq_true, Bool.and_eq_true, decide_eq_true_eq, decide_eq_true_eq, decide_eq_true_eq]
  rfl

theorem isDigit_iff {c : Char} : c.isDigit = true ↔ Digit c := by
  change (decide ('0' ≤ c) && decide (c ≤ '9')) = true ↔ _
  rw [Bool.and_eq_true, decide_eq_true_eq, decide_eq_true_eq]
  rfl

theorem isAlphanum_iff {c : Char} : c.isAlphanum = true ↔ Letter c ∨ Digit c := by
  change (c.isAlpha || c.isDigit) = true ↔ _
  rw [Bool.or_eq_true, isAlpha_iff, isDigit_iff]

theorem isStart_iff {c : Char} : isStart c = true ↔ Starts c := by
  simp only [isStart, isWide, Bool.or_eq_true, beq_iff_eq, decide_eq_true_eq, isAlpha_iff, or_assoc]
  rfl

theorem isContinue_iff {c : Char} : isContinue c = true ↔ Continues c := by
  simp only [isContinue, isWide, Bool.or_eq_true, beq_iff_eq, decide_eq_true_eq, isAlphanum_iff,
    or_assoc]
  rfl

/-- **A part without fault is a segment.** -/
theorem segmentFault?_eq_none_iff {part : List Char} :
    segmentFault? part = none ↔ Segment part := by
  cases part with
  | nil =>
    constructor
    · intro sound
      cases sound
    · intro segment
      cases segment
  | cons first rest =>
    rw [segmentFault?]
    split
    · rename_i starts
      rw [Option.map_eq_none_iff, List.find?_eq_none]
      constructor
      · intro sound
        refine .intro (isStart_iff.mp starts) fun c member => isContinue_iff.mp ?_
        simpa using sound c member
      · rintro ⟨_, continues⟩ c member
        simp [isContinue_iff.mpr (continues c member)]
    · rename_i stuck
      constructor
      · intro sound
        cases sound
      · rintro ⟨starts, _⟩
        exact absurd (isStart_iff.mpr starts) stuck

/-- The separator has no place within a segment. -/
theorem Segment.separator_not_mem {part : List Char} (segment : Segment part) :
    separator ∉ part := by
  obtain ⟨starts, continues⟩ := segment
  intro member
  rcases List.mem_cons.mp member with same | later
  · exact absurd (isStart_iff.mpr (same ▸ starts)) (by decide)
  · exact absurd (isContinue_iff.mpr (continues separator later)) (by decide)

end Segments

/-! ### Texts without fault -/

section Faultless

variable {bare : List Char}

/-- **The parts of a text are those of the standard cut** at every separator. -/
theorem segments_eq_splitOn (bare : List Char) : segments bare = bare.splitOn separator := by
  unfold List.splitOn
  induction bare with
  | nil => rfl
  | cons c rest ih =>
    rw [segments, List.splitOnP_cons_eq_if_modifyHead, ih]
    by_cases here : c = separator
    · simp [here]
    · -- The standard cut puts the character in front of the first part, and there is a first part.
      obtain ⟨part, more, cut⟩ :=
        List.exists_cons_of_ne_nil (List.splitOnP_ne_nil (fun x => x == separator) rest)
      simp [here, cut]

/-- No fault is found when every part is a segment; a text of no characters has one empty part. -/
theorem fault?_eq_none_iff_segments :
    fault? bare = none ↔ ∀ part ∈ bare.splitOn separator, Segment part := by
  have each : (segments bare).findSome? segmentFault? = none ↔
      ∀ part ∈ bare.splitOn separator, Segment part := by
    rw [List.findSome?_eq_none_iff, segments_eq_splitOn]
    simp only [segmentFault?_eq_none_iff]
  rw [← each]
  cases bare with
  | nil => simp [fault?, segments, segmentFault?]
  | cons c rest => simp [fault?]

/-- **No fault is found exactly in the texts of the grammar.** -/
theorem fault?_eq_none_iff : fault? bare = none ↔ Grammatical bare := by
  rw [fault?_eq_none_iff_segments]
  constructor
  · intro sound
    exact ⟨bare.splitOn separator, List.splitOnP_ne_nil _ _, sound,
      (List.intercalate_splitOn separator).symm⟩
  · rintro ⟨parts, some, sound, rfl⟩
    have apart : ∀ part ∈ parts, separator ∉ part := fun part member =>
      (sound part member).separator_not_mem
    rwa [List.splitOn_intercalate separator apart some]

end Faultless

/-! ### Spellings -/

section Spellings

variable {raw other : String} {name otherName : TypeName}

/-- The texts of the grammar are the texts of names. -/
theorem grammatical_iff {bare : List Char} :
    Grammatical bare ↔ ∃ name : TypeName, name.text.toList = bare := by
  rw [← fault?_eq_none_iff]
  constructor
  · intro sound
    have ofText : (String.ofList bare).toList = bare := String.toList_ofList
    exact ⟨⟨String.ofList bare, by rw [ofText]; exact sound⟩, ofText⟩
  · rintro ⟨name, rfl⟩
    exact name.faultless

theorem dropSeparator_eq (text : List Char) :
    dropSeparator text = if text.head? = some separator then text.tail else text := by
  cases text with
  | nil => rfl
  | cons first rest => simp [dropSeparator]

/-- The text of a name is what is left of its spelling without a leading separator. -/
theorem text_of_parse (read : parse raw = .ok name) :
    name.text.toList = dropSeparator raw.toList := by
  unfold parse at read
  split at read
  · cases read
  · cases read
    rw [String.toList_ofList]

theorem text_injective : Function.Injective TypeName.text := by
  intro left right same
  cases left
  cases right
  simpa using same

/-- A text is read as the name whose text is left of it without a leading separator. -/
theorem parse_of_text (left : dropSeparator raw.toList = name.text.toList) :
    parse raw = .ok name := by
  have sound : fault? (dropSeparator raw.toList) = none := by
    rw [left]
    exact name.faultless
  rw [parse_of_faultless sound]
  refine congrArg Except.ok (text_injective ?_)
  simp only [left, String.ofList_toList]

/-- **A name has two spellings**: its text, and its text behind a separator. -/
theorem parse_eq_ok_iff : parse raw = .ok name ↔
    raw.toList = name.text.toList ∨ raw.toList = separator :: name.text.toList := by
  constructor
  · intro read
    rw [text_of_parse read]
    cases raw.toList with
    | nil => exact .inl rfl
    | cons first rest =>
      by_cases leading : first = separator
      · simp [dropSeparator, leading]
      · simp [dropSeparator, leading]
  · rintro (plain | leading)
    · exact parse_of_text (by rw [plain, dropSeparator_of_faultless name.faultless])
    · exact parse_of_text (by rw [leading]; rfl)

theorem eq_leading_iff : raw = "\\" ++ other ↔ raw.toList = separator :: other.toList := by
  rw [← String.toList_inj, String.toList_append]
  rfl

/-- What is read behind a separator is read as the same name without it. -/
theorem parse_of_leading (leading : raw = "\\" ++ other) (read : parse raw = .ok name) :
    parse other = .ok name := by
  have text : name.text.toList = other.toList := by
    rw [text_of_parse read, eq_leading_iff.mp leading]
    rfl
  exact parse_eq_ok_iff.mpr (.inl text.symm)

/-- **Two spellings of one name** are the same up to a leading separator. -/
theorem name_eq_iff (read : parse raw = .ok name) (otherRead : parse other = .ok otherName) :
    name = otherName ↔ raw = other ∨ raw = "\\" ++ other ∨ other = "\\" ++ raw := by
  constructor
  · rintro rfl
    rw [eq_leading_iff, eq_leading_iff, ← String.toList_inj]
    rcases parse_eq_ok_iff.mp read with plain | leading <;>
      rcases parse_eq_ok_iff.mp otherRead with otherPlain | otherLeading
    · exact .inl (plain.trans otherPlain.symm)
    · exact .inr (.inr (plain ▸ otherLeading))
    · exact .inr (.inl (otherPlain ▸ leading))
    · exact .inl (leading.trans otherLeading.symm)
  · rintro (rfl | leading | leading)
    · exact Except.ok.inj (read.symm.trans otherRead)
    · exact Except.ok.inj ((parse_of_leading leading read).symm.trans otherRead)
    · exact Except.ok.inj (read.symm.trans (parse_of_leading leading otherRead))

end Spellings

/-- **What is read as a name.**  A text is read exactly when it is a text of the grammar, or one behind
a separator; the name is then the text without that separator, and its own text is read as the same
name; and two texts are read as one name exactly when they are the same, or the same up to one leading
separator. -/
theorem parse_exact :
    (∀ raw : String, (∃ name, parse raw = .ok name) ↔
      ∃ bare, Grammatical bare ∧ (raw.toList = bare ∨ raw.toList = separator :: bare)) ∧
    (∀ raw name, parse raw = .ok name →
      name.text.toList =
          (if raw.toList.head? = some separator then raw.toList.tail else raw.toList) ∧
        parse name.text = .ok name) ∧
    ∀ raw other name otherName, parse raw = .ok name → parse other = .ok otherName →
      (name = otherName ↔ raw = other ∨ raw = "\\" ++ other ∨ other = "\\" ++ raw) := by
  refine ⟨fun raw => ⟨?_, ?_⟩, fun raw name read => ⟨?_, parse_text name⟩,
    fun raw other name otherName => name_eq_iff⟩
  · rintro ⟨name, read⟩
    exact ⟨name.text.toList, grammatical_iff.mpr ⟨name, rfl⟩, parse_eq_ok_iff.mp read⟩
  · rintro ⟨bare, grammatical, spelt⟩
    obtain ⟨name, rfl⟩ := grammatical_iff.mp grammatical
    exact ⟨name, parse_eq_ok_iff.mpr spelt⟩
  · rw [text_of_parse read, dropSeparator_eq]

/-- Two segments, one of them with letters outside ASCII, in both spellings; behind a second separator
the text is no longer a name. -/
theorem legacy_menu_spellings :
    let menu : TypeName := ⟨"_V2\\caf\u00e9", by decide⟩
    parse "\\_V2\\caf\u00e9" = .ok menu ∧ parse "_V2\\caf\u00e9" = .ok menu ∧
      ¬ ∃ name, parse "\\\\_V2\\caf\u00e9" = .ok name := by
  intro menu
  have plain : parse "_V2\\caf\u00e9" = .ok menu := parse_text menu
  obtain ⟨spelt, shown, same⟩ := parse_exact
  have grammatical : Grammatical "_V2\\caf\u00e9".toList := grammatical_iff.mpr ⟨menu, rfl⟩
  obtain ⟨other, leading⟩ := (spelt "\\_V2\\caf\u00e9").mpr ⟨_, grammatical, .inr (by decide)⟩
  obtain rfl : menu = other :=
    (same _ _ _ _ plain leading).mpr (.inr (.inr (by decide)))
  refine ⟨leading, plain, ?_⟩
  rintro ⟨name, doubled⟩
  have text : name.text.toList = "\\_V2\\caf\u00e9".toList := (shown _ _ doubled).1
  exact absurd name.faultless (by rw [text]; decide)

end TypeName

end Mixin
