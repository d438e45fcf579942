/-
**Tokens, and the blanks between them.**

The text of a value is a row of tokens.  The grammar allows blanks before, between and after tokens,
so that one row of tokens has many texts, of which the compact one has no blanks at all.

* `tokens` — the tokens of a value; without blanks they are its compact text (`flatten_tokens`).
* `Spaced tokens text` — the text is the tokens in order, with blanks anywhere around them.
* `Spaced.first` — dropping the blanks in front brings the first token to the front.
* `Takes read value tokens` — wherever the tokens come first, the reader gives the value and leaves a
  text of the tokens that follow.
-/

import Mixin.Json.Printer
import Mixin.Json.Sequence

namespace Mixin.Json

open Text (isJsonBlank dropJsonBlank)

variable {ρ α : Type}

/-- Characters between which no blank may stand. -/
abbrev Token := List Char

/-! ### The tokens of a value -/

section Tokens

/-- What stands before a part of a row: a comma, unless the part is the first. -/
def lead (first : Bool) : List Token := if first then [] else [[',']]

/-- Parts in a row, with commas between them and one in front unless the row begins here. -/
def row : Bool → List (List Token) → List Token
  | _, [] => []
  | first, part :: rest => lead first ++ (part ++ row false rest)

/-- The tokens of a member of an object, from those of its value. -/
def keyed (member : String × List Token) : List Token :=
  writeString member.1 :: [':'] :: member.2

mutual

/-- The tokens of a value, in the order of its text. -/
def tokens : Json → List Token
  | arr items => ['['] :: (row true (itemTokens items) ++ [[']']])
  | obj members => ['{'] :: (row true (memberTokens members) ++ [['}']])
  | scalar => [write scalar]

/-- The tokens of each item of an array. -/
def itemTokens : List Json → List (List Token)
  | [] => []
  | item :: rest => tokens item :: itemTokens rest

/-- The tokens of each member of an object. -/
def memberTokens : List (String × Json) → List (List Token)
  | [] => []
  | (key, value) :: rest => keyed (key, tokens value) :: memberTokens rest

end

theorem tokens_arr (items : List Json) :
    tokens (arr items) = ['['] :: (row true (items.map tokens) ++ [[']']]) := by
  have itemwise : itemTokens items = items.map tokens := by
    induction items with
    | nil => rw [itemTokens, List.map_nil]
    | cons item rest ih => rw [itemTokens, ih, List.map_cons]
  rw [tokens, itemwise]

theorem tokens_obj (members : List (String × Json)) :
    tokens (obj members) =
      ['{'] :: (row true ((members.map fun member => (member.1, tokens member.2)).map keyed) ++
        [['}']]) := by
  have memberwise : memberTokens members =
      (members.map fun member => (member.1, tokens member.2)).map keyed := by
    induction members with
    | nil => rw [memberTokens, List.map_nil, List.map_nil]
    | cons member rest ih =>
      obtain ⟨key, value⟩ := member
      rw [memberTokens, ih, List.map_cons, List.map_cons]
  rw [tokens, memberwise]

/-- Leaving out blanks turns a row into its parts joined by commas. -/
theorem flatten_row (parts : List (List Token)) :
    (row true parts).flatten = commaJoin (parts.map List.flatten) := by
  induction parts with
  | nil => rfl
  | cons part rest ih =>
    cases rest with
    | nil => simp [row, lead, commaJoin]
    | cons next others =>
      have later : row false (next :: others) = [','] :: row true (next :: others) := rfl
      rw [row, later, List.flatten_append, List.flatten_append, List.flatten_cons, ih]
      rfl

mutual

/-- **Without blanks the tokens of a value are its compact text.** -/
theorem flatten_tokens : ∀ value : Json, (tokens value).flatten = write value
  | null | bool _ | num _ | str _ => by simp [tokens]
  | arr items => by simp [tokens, write, flatten_row, flatten_itemTokens items]
  | obj members => by simp [tokens, write, flatten_row, flatten_memberTokens members]

theorem flatten_itemTokens : ∀ items : List Json,
    (itemTokens items).map List.flatten = writeItems items
  | [] => by rw [itemTokens, writeItems, List.map_nil]
  | item :: rest => by
    rw [itemTokens, writeItems, List.map_cons, flatten_tokens item, flatten_itemTokens rest]

theorem flatten_memberTokens : ∀ members : List (String × Json),
    (memberTokens members).map List.flatten = writeMembers members
  | [] => by rw [memberTokens, writeMembers, List.map_nil]
  | (key, value) :: rest => by
    rw [memberTokens, writeMembers, List.map_cons, keyed, List.flatten_cons, List.flatten_cons,
      flatten_tokens value, flatten_memberTokens rest]
    rfl

end

end Tokens

/-! ### Blanks -/

section Blanks

/-- A text of blanks of the grammar and nothing else. -/
def Blanks (text : List Char) : Prop := ∀ c ∈ text, isJsonBlank c = true

instance (text : List Char) : Decidable (Blanks text) :=
  List.decidableBAll (fun c : Char => isJsonBlank c = true) text

/-- The text is the tokens in order, with blanks anywhere before, between and after them. -/
inductive Spaced : List Token → List Char → Prop
  | none {blanks : List Char} : Blanks blanks → Spaced [] blanks
  | token {blanks : List Char} {token : Token} {tokens : List Token} {rest : List Char} :
      Blanks blanks → Spaced tokens rest → Spaced (token :: tokens) (blanks ++ (token ++ rest))

theorem dropJsonBlank_of_blanks {blanks : List Char} (blank : Blanks blanks) (text : List Char) :
    dropJsonBlank (blanks ++ text) = dropJsonBlank text :=
  List.dropWhile_append_of_pos blank

theorem dropJsonBlank_of_solid {c : Char} (solid : isJsonBlank c = false) (rest : List Char) :
    dropJsonBlank (c :: rest) = c :: rest :=
  List.dropWhile_cons_of_neg (by rw [solid]; exact Bool.false_ne_true)

namespace Spaced

variable {tokens more : List Token} {text blanks : List Char}

/-- Without tokens there are only blanks to drop. -/
theorem drop_nil (spaced : Spaced [] text) : dropJsonBlank text = [] := by
  cases spaced with
  | none blank =>
    rw [← text.append_nil, dropJsonBlank_of_blanks blank]
    rfl

/-- **Dropping blanks brings the first token to the front.** -/
theorem first {c : Char} {token : Token} (spaced : Spaced ((c :: token) :: tokens) text)
    (solid : isJsonBlank c = false) :
    ∃ rest, dropJsonBlank text = c :: (token ++ rest) ∧ Spaced tokens rest := by
  cases spaced with
  | @token blanks _ _ rest blank after =>
    refine ⟨rest, ?_, after⟩
    rw [dropJsonBlank_of_blanks blank, List.cons_append, dropJsonBlank_of_solid solid]

/-- Dropping blanks brings a string to the front. -/
theorem first_string {value : String} (spaced : Spaced (writeString value :: tokens) text) :
    ∃ rest, dropJsonBlank text = '"' :: (value.toList.flatMap escape ++ '"' :: rest) ∧
      Spaced tokens rest := by
  have asQuote : Spaced (('"' :: (value.toList.flatMap escape ++ ['"'])) :: tokens) text := spaced
  obtain ⟨rest, dropped, after⟩ := asQuote.first (by decide)
  refine ⟨rest, ?_, after⟩
  rw [dropped, List.append_assoc, List.singleton_append]

/-- The tokens may come directly, without blanks before them. -/
theorem direct (token : Token) {rest : List Char} (after : Spaced tokens rest) :
    Spaced (token :: tokens) (token ++ rest) := by
  have noBlanks : Blanks [] := fun _ impossible => nomatch impossible
  exact .token noBlanks after

/-- More blanks may come first. -/
theorem blanks_append (blank : Blanks blanks) (spaced : Spaced tokens text) :
    Spaced tokens (blanks ++ text) := by
  have both : ∀ {others : List Char}, Blanks others → Blanks (blanks ++ others) :=
    fun blankOthers c member => (List.mem_append.mp member).elim (blank c) (blankOthers c)
  cases spaced with
  | none blankText => exact .none (both blankText)
  | token blankFront after =>
    rw [← List.append_assoc]
    exact .token (both blankFront) after

/-- Texts of two rows of tokens, one after the other, are a text of both rows. -/
theorem append {later : List Char} (spaced : Spaced tokens text) (spacedLater : Spaced more later) :
    Spaced (tokens ++ more) (text ++ later) := by
  induction spaced with
  | none blank => exact spacedLater.blanks_append blank
  | token blank _ ih =>
    rw [List.append_assoc, List.append_assoc]
    exact .token blank ih

/-- The tokens alone are a text of themselves. -/
theorem flatten (tokens : List Token) : Spaced tokens tokens.flatten := by
  induction tokens with
  | nil => exact .none fun _ impossible => nomatch impossible
  | cons token rest ih => exact direct token ih

/-- Texts joined by commas are a text of the tokens in a row. -/
theorem commaJoin {tokensOf : α → List Token} {textOf : α → List Char} (values : List α)
    (each : ∀ value ∈ values, Spaced (tokensOf value) (textOf value)) :
    Spaced (row true (values.map tokensOf)) (Json.commaJoin (values.map textOf)) := by
  induction values with
  | nil => exact flatten []
  | cons value values ih =>
    have here := each value List.mem_cons_self
    have later := ih fun other member => each other (List.mem_cons_of_mem _ member)
    cases values with
    | nil =>
      rw [List.map_cons, List.map_nil, row, row, List.append_nil]
      exact here
    | cons next others =>
      rw [List.map_cons, row]
      exact here.append (direct [','] later)

/-- A text is at least as long as its tokens. -/
theorem length_le (spaced : Spaced tokens text) : tokens.flatten.length ≤ text.length := by
  induction spaced with
  | none _ => exact Nat.zero_le _
  | token _ _ ih =>
    simp only [List.flatten_cons, List.length_append]
    omega

end Spaced

end Blanks

/-! ### Readers of tokens -/

section Readers

/-- Wherever the tokens come first, the reader gives the value and leaves a text of what follows. -/
def Takes (read : Reader ρ α) (value : α) (tokens : List Token) : Prop :=
  ∀ more text, Spaced (tokens ++ more) text →
    ∃ rest, read text = .ok (value, rest) ∧ Spaced more rest

/-- What a reader takes may be looked at and turned into something else. -/
theorem Takes.check {β : Type} {read : Reader ρ α} {value : α} {result : β} {tokens : List Token}
    (takes : Takes read value tokens) (f : α → Except (Fault ρ) β) (passes : f value = .ok result) :
    Takes (fun text => read text >>= fun found => f found.1 >>= fun made => .ok (made, found.2))
      result tokens := by
  intro more text spaced
  obtain ⟨rest, done, after⟩ := takes more text spaced
  refine ⟨rest, ?_, after⟩
  show (read text >>= _) = _
  rw [done]
  show (f value >>= _) = _
  rw [passes]
  rfl

theorem Takes.map {β : Type} {read : Reader ρ α} {value : α} {tokens : List Token}
    (takes : Takes read value tokens) (f : α → β) :
    Takes (fun text => read text >>= fun found => .ok (f found.1, found.2)) (f value) tokens :=
  takes.check (fun found => .ok (f found)) rfl

/-- The first token can begin a value: a word, a string or a bracket. -/
def Opens (tokens : List Token) : Prop :=
  ∃ c token rest, tokens = (c :: token) :: rest ∧ c ∈ ['n', 't', 'f', '"', '[', '{']

/-- A character that can begin a value is no blank and closes nothing. -/
theorem solid_of_opening {c : Char} (opening : c ∈ ['n', 't', 'f', '"', '[', '{']) :
    isJsonBlank c = false ∧ c ≠ ']' := by
  simp only [List.mem_cons, List.not_mem_nil, or_false] at opening
  rcases opening with rfl | rfl | rfl | rfl | rfl | rfl <;> decide

/-- Where tokens that can begin a value come first, dropping blanks leaves a text of them that begins
with no closing bracket. -/
theorem Opens.drop {tokens more : List Token} {text : List Char} (opens : Opens tokens)
    (spaced : Spaced (tokens ++ more) text) :
    ∃ c rest, dropJsonBlank text = c :: rest ∧ c ≠ ']' ∧ Spaced (tokens ++ more) (c :: rest) := by
  obtain ⟨c, token, others, rfl, opening⟩ := opens
  obtain ⟨solid, notClose⟩ := solid_of_opening opening
  obtain ⟨rest, dropped, after⟩ := Spaced.first spaced solid
  exact ⟨c, token ++ rest, dropped, notClose, after.direct (c :: token)⟩

/-- Tokens that can begin a value take at least one character. -/
theorem Opens.length_pos {tokens : List Token} (opens : Opens tokens) :
    1 ≤ tokens.flatten.length := by
  obtain ⟨c, token, rest, rfl, _⟩ := opens
  simp only [List.flatten_cons, List.cons_append, List.length_cons]
  omega

theorem opens_keyed (member : String × List Token) : Opens (keyed member) :=
  ⟨'"', _, _, rfl, by decide⟩

variable {tokensOf : α → List Token} {values : List α}

/-- A row has a character for each of its parts. -/
theorem length_le_row (opens : ∀ value ∈ values, Opens (tokensOf value)) (first : Bool) :
    values.length ≤ (row first (values.map tokensOf)).flatten.length := by
  induction values generalizing first with
  | nil => exact Nat.zero_le _
  | cons value values ih =>
    have here := (opens value List.mem_cons_self).length_pos
    have later := ih (fun other member => opens other (List.mem_cons_of_mem _ member)) false
    rw [List.map_cons, row, List.flatten_append, List.flatten_append, List.length_append,
      List.length_append, List.length_cons]
    omega

/-- So has a row without commas. -/
theorem length_le_flatMap (opens : ∀ value ∈ values, Opens (tokensOf value)) :
    values.length ≤ (values.flatMap tokensOf).flatten.length := by
  induction values with
  | nil => exact Nat.zero_le _
  | cons value values ih =>
    have here := (opens value List.mem_cons_self).length_pos
    have later := ih fun other member => opens other (List.mem_cons_of_mem _ member)
    rw [List.flatMap_cons, List.flatten_append, List.length_append, List.length_cons]
    omega

/-- The parts of a row are fewer than the characters up to the bracket that ends it. -/
theorem length_lt_of_spaced {more : List Token} {text : List Char} {first : Bool} {close : Char}
    (opens : ∀ value ∈ values, Opens (tokensOf value))
    (spaced : Spaced (row first (values.map tokensOf) ++ [[close]] ++ more) text) :
    values.length < text.length := by
  have parts := length_le_row opens first
  have whole := spaced.length_le
  rw [List.flatten_append, List.flatten_append, List.length_append, List.length_append] at whole
  have bracket : ([[close]] : List Token).flatten.length = 1 := rfl
  omega

end Readers

end Mixin.Json
