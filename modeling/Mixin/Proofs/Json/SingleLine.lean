/-
**Written values stand on one line.**

No character below the space occurs in the compact text of a value: strings escape them, and the
digits, signs and punctuation around strings are all above it.  So a written value holds no line
break (`newline_not_mem_compact`), and texts without one that are put together by line breaks are found
again as the lines of the whole (`lines_intercalate`, `lines_join`).
-/

import Mixin.Json.Printer

namespace Mixin.Json

/-- A text without characters below the space. -/
def OneLine (text : List Char) : Prop := ∀ c ∈ text, 0x20 ≤ c.toNat

instance (text : List Char) : Decidable (OneLine text) :=
  List.decidableBAll (fun c : Char => 0x20 ≤ c.toNat) text

section Lists

variable {left right : List Char}

@[simp] theorem oneLine_nil : OneLine [] := fun _ impossible => nomatch impossible

@[simp] theorem oneLine_cons {c : Char} : OneLine (c :: right) ↔ 0x20 ≤ c.toNat ∧ OneLine right :=
  List.forall_mem_cons

@[simp] theorem oneLine_append : OneLine (left ++ right) ↔ OneLine left ∧ OneLine right :=
  List.forall_mem_append

theorem oneLine_of_digits (digits : ∀ c ∈ right, c.isDigit = true) : OneLine right := by
  intro c member
  have digit := digits c member
  simp only [Char.isDigit, ge_iff_le, Bool.and_eq_true, decide_eq_true_eq] at digit
  have above : 48 ≤ c.toNat := digit.1
  omega

theorem oneLine_commaJoin {parts : List (List Char)} (each : ∀ part ∈ parts, OneLine part) :
    OneLine (commaJoin parts) := by
  fun_induction commaJoin parts with
  | case1 => exact oneLine_nil
  | case2 part => exact each part List.mem_cons_self
  | case3 part rest _ ih =>
    have later := ih fun other member => each other (List.mem_cons_of_mem _ member)
    simp only [oneLine_append, oneLine_cons]
    exact ⟨each part List.mem_cons_self, by decide, later⟩

end Lists

/-! ### Strings -/

section Strings

/-- Whatever a character is, it is written without control characters. -/
theorem oneLine_escape (c : Char) : OneLine (escape c) := by
  have digit : ∀ value < 16, 0x20 ≤ (Nat.digitChar value).toNat := by decide
  unfold escape
  split
  case h_8 =>
    split
    · rename_i low
      simp only [numericEscape, oneLine_cons, oneLine_nil, and_true]
      exact ⟨by decide, by decide, by decide, by decide, digit _ (by omega), digit _ (by omega)⟩
    · rename_i high
      simp only [oneLine_cons, oneLine_nil, and_true]
      omega
  all_goals decide

theorem oneLine_writeString (text : String) : OneLine (writeString text) := by
  have inside : OneLine (text.toList.flatMap escape) := by
    intro c member
    obtain ⟨source, _, written⟩ := List.mem_flatMap.mp member
    exact oneLine_escape source c written
  simp only [writeString, List.cons_append, oneLine_cons, oneLine_append, oneLine_nil, and_true]
  exact ⟨by decide, inside, by decide⟩

end Strings

/-! ### Numbers -/

section Numbers

theorem oneLine_toDigits (value : Nat) : OneLine (Nat.toDigits 10 value) :=
  oneLine_of_digits fun _ member => Nat.isDigit_of_mem_toDigits (by decide) (by decide) member

theorem oneLine_ofCoefficient (coefficient : Nat) (power : Int) :
    OneLine (Decimal.ofCoefficient coefficient power).digits := by
  intro c member
  have kept : c ∈ (Nat.toDigits 10 coefficient).reverse.dropWhile (· == '0') :=
    List.mem_reverse.mp member
  have listed := List.mem_reverse.mp ((List.dropWhile_suffix _).subset kept)
  exact oneLine_toDigits coefficient c listed

/-- The digits of the shortest decimal are those of some coefficient. -/
theorem oneLine_shortest (m : Magnitude) : OneLine (Decimal.shortest m).digits := by
  unfold Decimal.shortest
  simp only
  generalize found : (List.findSome? _ (List.range 17)) = attempt
  cases attempt with
  | none => exact oneLine_ofCoefficient _ _
  | some decimal =>
    obtain ⟨count, _, tried⟩ := List.exists_of_findSome?_eq_some found
    obtain ⟨coefficient, _, rfl⟩ := Option.map_eq_some_iff.mp tried
    exact oneLine_ofCoefficient _ _

theorem oneLine_writeDecimal (layout : Decimal.Layout) (d : Decimal) (digits : OneLine d.digits) :
    OneLine (d.write layout) := by
  have zeros : ∀ count, OneLine (Decimal.zeros count) := by
    intro count c member
    rw [List.eq_of_mem_replicate member]
    decide
  have front : ∀ count, OneLine (d.digits.take count) :=
    fun count c member => digits c (List.mem_of_mem_take member)
  have back : ∀ count, OneLine (d.digits.drop count) :=
    fun count c member => digits c (List.mem_of_mem_drop member)
  unfold Decimal.write
  split
  · unfold Decimal.positional
    split
    · simp only [oneLine_append, oneLine_cons, oneLine_nil, and_true]
      exact ⟨⟨by decide, zeros _⟩, digits⟩
    · simp only [oneLine_append, oneLine_cons, oneLine_nil, and_true]
      refine ⟨⟨⟨front _, zeros _⟩, by decide⟩, ?_⟩
      split
      · decide
      · exact back _
  · unfold Decimal.scientific
    simp only [oneLine_append, oneLine_cons, oneLine_nil, and_true]
    refine ⟨⟨⟨⟨front _, ?_⟩, back _⟩, by decide, ?_⟩, oneLine_toDigits _⟩
    · split
      · exact oneLine_nil
      · decide
    · split <;> decide

theorem oneLine_writeNumber (number : Number) : OneLine (writeNumber number) := by
  cases number with
  | int value =>
    unfold writeNumber writeInt
    rw [oneLine_append]
    refine ⟨?_, oneLine_toDigits _⟩
    split
    · decide
    · exact oneLine_nil
  | float value =>
    unfold writeNumber Decimal.writeFloat
    have sign : OneLine (if value.toBits.toNat / powerOfTwo 63 = 1 then ['-'] else []) := by
      split
      · decide
      · exact oneLine_nil
    simp only
    split
    · exact oneLine_append.mpr ⟨sign, by decide⟩
    · exact oneLine_append.mpr ⟨sign, oneLine_writeDecimal _ _ (oneLine_shortest _)⟩

end Numbers

/-! ### Values -/

mutual

/-- **The compact text of a value stands on one line.** -/
theorem oneLine_write : ∀ value : Json, OneLine (write value)
  | null | bool true | bool false => by simp only [write]; decide
  | num number => by
    rw [write]
    exact oneLine_writeNumber number
  | str text => by
    rw [write]
    exact oneLine_writeString text
  | arr items => by
    simp only [write, List.cons_append, oneLine_cons, oneLine_append, oneLine_nil, and_true]
    exact ⟨by decide, oneLine_commaJoin (oneLine_writeItems items), by decide⟩
  | obj members => by
    simp only [write, List.cons_append, oneLine_cons, oneLine_append, oneLine_nil, and_true]
    exact ⟨by decide, oneLine_commaJoin (oneLine_writeMembers members), by decide⟩

theorem oneLine_writeItems : ∀ items : List Json, ∀ part ∈ writeItems items, OneLine part
  | [], part, member => by
    rw [writeItems] at member
    cases member
  | item :: rest, part, member => by
    rw [writeItems] at member
    rcases List.mem_cons.mp member with rfl | later
    · exact oneLine_write item
    · exact oneLine_writeItems rest part later

theorem oneLine_writeMembers : ∀ members : List (String × Json),
    ∀ part ∈ writeMembers members, OneLine part
  | [], part, member => by
    rw [writeMembers] at member
    cases member
  | (key, value) :: rest, part, member => by
    rw [writeMembers] at member
    rcases List.mem_cons.mp member with rfl | later
    · rw [oneLine_append, oneLine_cons]
      exact ⟨oneLine_writeString key, by decide, oneLine_write value⟩
    · exact oneLine_writeMembers rest part later

end

/-- A written value holds no line break. -/
theorem newline_not_mem_compact (value : Json) : '\n' ∉ value.compact.toList := by
  intro member
  rw [compact, String.toList_ofList] at member
  exact absurd (oneLine_write value '\n' member) (by decide)

end Mixin.Json

/-! ### Lines of a text -/

namespace Mixin.Text

/-- The lines of a text. -/
def lines (text : String) : List String := (text.split '\n').toList.map String.Slice.copy

variable {parts : List String}

/-- **Texts of one line each** are the lines of what they make together. -/
theorem lines_intercalate (some : parts ≠ []) (oneLine : ∀ part ∈ parts, '\n' ∉ part.toList) :
    lines ("\n".intercalate parts) = parts := by
  have split := String.toList_split_intercalate oneLine
  rwa [if_neg some] at split

theorem join_eq_intercalate (parts : List String) :
    String.join (parts.map (· ++ "\n")) = "\n".intercalate (parts ++ [""]) := by
  induction parts with
  | nil => exact String.intercalate_singleton.symm
  | cons part rest ih =>
    rw [List.map_cons, String.join_cons, ih, List.cons_append,
      String.intercalate_cons_of_ne_nil (by simp)]

/-- Where each line has its end, an empty line stands behind the last end. -/
theorem lines_join (oneLine : ∀ part ∈ parts, '\n' ∉ part.toList) :
    lines (String.join (parts.map (· ++ "\n"))) = parts ++ [""] := by
  rw [join_eq_intercalate]
  refine lines_intercalate (by simp) fun part listed => ?_
  rcases List.mem_append.mp listed with old | last
  · exact oneLine part old
  · obtain rfl := List.mem_singleton.mp last
    decide

end Mixin.Text
