/-
**Arrays and sequences of declarations are the same stream.**

A stream of declarations may be written as one array, or as a bare sequence with or without blanks
between its parts; the first character that is not blank tells which.  Both give the declarations
that were written, in order, whatever their texts contain.

* `parse_array_of_spaced` — one array, with blanks around any of its tokens.
* `parse_sequence_of_spaced` — a bare sequence, with blanks around any of its tokens.
* **`framings_agree`** — the same list from both, for compact texts with any blanks around them.
-/

import Mixin.Declaration.Stream
import Mixin.Proofs.Declaration.RoundTrip

namespace Mixin

namespace Stream

open Json (Spaced Takes Opens Blanks tokens)
open Text (dropJsonBlank trimStart)

/-! ### Which framing it is -/

section Choice

/-- The first character that is no blank in the narrow sense is also the first in the wide sense, if
it is no blank there. -/
theorem trimStart_of_dropped {text rest : List Char} {c : Char}
    (dropped : dropJsonBlank text = c :: rest) (solid : Text.isBlank c = false) :
    trimStart text = c :: rest := by
  rw [← Text.trimStart_dropJsonBlank, dropped]
  exact List.dropWhile_cons_of_neg (by rw [solid]; exact Bool.false_ne_true)

variable {more : List Json.Token} {text : List Char}

theorem isArray_of_bracket (spaced : Spaced (['['] :: more) text) : isArray text = true := by
  obtain ⟨rest, dropped, _⟩ := Spaced.first spaced (by decide)
  unfold isArray
  rw [trimStart_of_dropped dropped (by decide)]
  rfl

theorem not_isArray_of_brace (spaced : Spaced (['{'] :: more) text) : isArray text = false := by
  obtain ⟨rest, dropped, _⟩ := Spaced.first spaced (by decide)
  unfold isArray
  rw [trimStart_of_dropped dropped (by decide)]
  rfl

end Choice

theorem opens_declaration (d : Declaration) : Opens (tokens d.toJson) :=
  Json.opens_tokens (plain_declaration 0 d)

/-! ### Arrays -/

section Arrays

theorem takes_readArray (ds : List Declaration) :
    Takes readArray ds (tokens (.arr (ds.map Declaration.toJson))) := by
  have each : ∀ d ∈ ds, Opens (tokens d.toJson) ∧
      Takes (Declaration.read (Declaration.statementDepth - 1)) d (tokens d.toJson) :=
    fun d _ => ⟨opens_declaration d, Declaration.takes_read (Declaration.statementDepth - 2) d⟩
  rw [Json.tokens_arr, List.map_map]
  refine Json.begins_list.takes (fun text rest opened => ?_) (Json.takes_readItems ds each)
  unfold readArray
  rw [opened]
  rfl

/-- **One array of declarations is read as the declarations.** -/
theorem parse_array_of_spaced {ds : List Declaration} (nonempty : ds ≠ []) {source : String}
    (spaced : Spaced (tokens (.arr (ds.map Declaration.toJson))) source.toList) :
    parse source = .ok ds := by
  have bracket : isArray source.toList = true := by
    rw [tokens] at spaced
    exact isArray_of_bracket spaced
  unfold parse readAll
  rw [if_pos bracket, Json.readWhole_of_takes (takes_readArray ds) spaced]
  show (if ds.isEmpty = true then _ else _) = _
  rw [if_neg fun empty => nonempty (List.isEmpty_iff.mp empty)]

end Arrays

/-! ### Sequences -/

section Sequences

/-- A sequence of declarations is read in as many steps as it has declarations. -/
theorem readFrom_of_spaced (ds : List Declaration) :
    ∀ (steps : Nat) (text : List Char), ds.length ≤ steps →
      Spaced (ds.flatMap fun d => tokens d.toJson) text → readFrom steps text = .ok ds := by
  induction ds with
  | nil =>
    intro steps text _ spaced
    cases steps with
    | zero => rfl
    | succ steps =>
      rw [readFrom, spaced.drop_nil]
  | cons d ds ih =>
    intro steps text enough spaced
    obtain ⟨steps, rfl⟩ := Nat.exists_eq_succ_of_ne_zero (Nat.ne_zero_of_lt enough)
    rw [List.flatMap_cons] at spaced
    obtain ⟨c, start, dropped, _, here⟩ := (opens_declaration d).drop spaced
    obtain ⟨rest, done, after⟩ :=
      Declaration.takes_read (Declaration.statementDepth - 1) d _ _ here
    have others := ih steps rest (Nat.le_of_succ_le_succ enough) after
    rw [readFrom, dropped]
    dsimp only
    rw [show Declaration.statementDepth = Declaration.statementDepth - 1 + 1 from rfl, done]
    show (readFrom steps rest >>= _) = _
    rw [others]
    rfl

/-- **A bare sequence of declarations is read as the declarations.** -/
theorem parse_sequence_of_spaced {ds : List Declaration} (nonempty : ds ≠ []) {source : String}
    (spaced : Spaced (ds.flatMap fun d => tokens d.toJson) source.toList) :
    parse source = .ok ds := by
  have brace : isArray source.toList = false := by
    cases ds with
    | nil => exact absurd rfl nonempty
    | cons d ds =>
      rw [List.flatMap_cons, Declaration.toJson, tokens, List.cons_append] at spaced
      exact not_isArray_of_brace spaced
  have enough : ds.length ≤ source.toList.length :=
    Nat.le_trans (Json.length_le_flatMap fun d _ => opens_declaration d) spaced.length_le
  unfold parse readAll readSequence
  rw [brace, if_neg Bool.false_ne_true, readFrom_of_spaced ds _ _ enough spaced]
  show (if ds.isEmpty = true then _ else _) = _
  rw [if_neg fun empty => nonempty (List.isEmpty_iff.mp empty)]

end Sequences

/-! ### Compact texts between blanks -/

section Pieces

/-- A declaration with the blanks that stand before and after its compact text. -/
structure Piece where
  before : List Char
  declaration : Declaration
  after : List Char
  blankBefore : Blanks before
  blankAfter : Blanks after

/-- The compact text of the declaration between its blanks. -/
def Piece.text (piece : Piece) : List Char :=
  piece.before ++ (piece.declaration.toJson.compact.toList ++ piece.after)

/-- The pieces as one array: between brackets, with commas, and with blanks around the whole. -/
def arrayText (lead : List Char) (pieces : List Piece) (trail : List Char) : String :=
  String.ofList (lead ++ '[' :: (Json.commaJoin (pieces.map Piece.text) ++ ']' :: trail))

/-- The pieces as a bare sequence. -/
def sequenceText (pieces : List Piece) : String :=
  String.ofList (pieces.flatMap Piece.text)

theorem Piece.spaced (piece : Piece) : Spaced (tokens piece.declaration.toJson) piece.text := by
  have compact := (spaced_compact piece.declaration.toJson).append (.none piece.blankAfter)
  rw [List.append_nil] at compact
  exact compact.blanks_append piece.blankBefore

theorem spaced_sequenceText (pieces : List Piece) :
    Spaced ((pieces.map Piece.declaration).flatMap fun d => tokens d.toJson)
      (sequenceText pieces).toList := by
  unfold sequenceText
  rw [String.toList_ofList]
  induction pieces with
  | nil => exact Spaced.flatten []
  | cons piece pieces ih =>
    rw [List.map_cons, List.flatMap_cons, List.flatMap_cons]
    exact piece.spaced.append ih

theorem spaced_arrayText {lead trail : List Char} (blankLead : Blanks lead)
    (blankTrail : Blanks trail) (pieces : List Piece) :
    Spaced (tokens (.arr ((pieces.map Piece.declaration).map Declaration.toJson)))
      (arrayText lead pieces trail).toList := by
  have inside : Spaced (Json.row true (pieces.map fun piece => tokens piece.declaration.toJson))
      (Json.commaJoin (pieces.map Piece.text)) :=
    Spaced.commaJoin pieces fun piece _ => piece.spaced
  have closed := inside.append (Spaced.direct [']'] (.none blankTrail))
  have opened := (Spaced.direct ['['] closed).blanks_append blankLead
  unfold arrayText
  rw [String.toList_ofList, Json.tokens_arr, List.map_map, List.map_map]
  exact opened

/-- **Arrays and sequences of declarations are the same stream.**  The compact texts of one or more
declarations, with any blanks around each, give the declarations in order, as one array and as a bare
sequence; and in the array blanks may also stand around every token inside the texts. -/
theorem framings_agree (pieces : List Piece) (nonempty : pieces ≠ []) (lead trail : List Char)
    (blankLead : Blanks lead) (blankTrail : Blanks trail) :
    parse (arrayText lead pieces trail) = .ok (pieces.map Piece.declaration) ∧
      parse (sequenceText pieces) = .ok (pieces.map Piece.declaration) ∧
      ∀ source : String,
        Spaced (tokens (.arr ((pieces.map Piece.declaration).map Declaration.toJson)))
          source.toList →
        parse source = .ok (pieces.map Piece.declaration) := by
  have declared : pieces.map Piece.declaration ≠ [] := fun none =>
    nonempty (List.map_eq_nil_iff.mp none)
  exact ⟨parse_array_of_spaced declared (spaced_arrayText blankLead blankTrail pieces),
    parse_sequence_of_spaced declared (spaced_sequenceText pieces),
    fun source spaced => parse_array_of_spaced declared spaced⟩

/-- Two declarations without a blank between them; the text of a member looks like the end of one
stream and the beginning of another. -/
def glued : List Piece :=
  [⟨[], { body := [.member "]\x7d\n[\x7b\"", .use []] }, [], by decide, by decide⟩,
    ⟨[], .named ⟨"App\\A", by decide⟩, ['\n'], by decide, by decide⟩]

theorem glued_framings :
    parse (arrayText ['\n', ' '] glued []) = .ok (glued.map Piece.declaration) ∧
      parse (sequenceText glued) = .ok (glued.map Piece.declaration) ∧
      parse (Json.arr ((glued.map Piece.declaration).map Declaration.toJson)).compact =
        .ok (glued.map Piece.declaration) := by
  obtain ⟨array, sequence, spaced⟩ :=
    framings_agree glued (List.cons_ne_nil _ _) ['\n', ' '] [] (by decide) (by decide)
  exact ⟨array, sequence, spaced _ (spaced_compact _)⟩

end Pieces

end Stream

end Mixin
