/-
**Blank characters, and trimming.**

Two notions of blank meet in the texts this library reads.  `isBlank` is the wide one: the
twenty-five characters with the Unicode property White_Space.  `isJsonBlank` is the narrow one of
the JSON grammar.  `trimStart` and `trim` use the wide one; `dropJsonBlank` the narrow one.
-/

namespace Mixin.Text

/-- The characters with the Unicode property White_Space. -/
def isBlank (c : Char) : Bool :=
  let code := c.toNat
  (0x09 ≤ code && code ≤ 0x0D) || code == 0x20 || code == 0x85 || code == 0xA0 ||
    code == 0x1680 || (0x2000 ≤ code && code ≤ 0x200A) || code == 0x2028 || code == 0x2029 ||
    code == 0x202F || code == 0x205F || code == 0x3000

/-- The four characters that JSON allows between tokens. -/
def isJsonBlank (c : Char) : Bool :=
  c == ' ' || c == '\t' || c == '\n' || c == '\r'

/-- Drops leading blank characters. -/
def trimStart (text : List Char) : List Char :=
  text.dropWhile isBlank

/-- Drops leading and trailing blank characters. -/
def trim (text : List Char) : List Char :=
  ((text.dropWhile isBlank).reverse.dropWhile isBlank).reverse

/-- Drops the blanks that may stand before a JSON token. -/
def dropJsonBlank (text : List Char) : List Char :=
  text.dropWhile isJsonBlank

/-- Every blank of the JSON grammar is blank in the wide sense. -/
theorem isBlank_of_isJsonBlank {c : Char} (blank : isJsonBlank c = true) : isBlank c = true := by
  simp only [isJsonBlank, Bool.or_eq_true, beq_iff_eq] at blank
  rcases blank with ((rfl | rfl) | rfl) | rfl <;> decide

/-- Dropping blanks of the JSON grammar first makes no difference to trimming. -/
theorem trimStart_dropJsonBlank (text : List Char) :
    trimStart (dropJsonBlank text) = trimStart text := by
  induction text with
  | nil => rfl
  | cons c rest ih =>
    by_cases blank : isJsonBlank c = true
    · have wide : isBlank c = true := isBlank_of_isJsonBlank blank
      unfold dropJsonBlank trimStart at ih ⊢
      rw [List.dropWhile_cons_of_pos blank, List.dropWhile_cons_of_pos wide, ih]
    · unfold dropJsonBlank
      rw [List.dropWhile_cons_of_neg blank]

end Mixin.Text
