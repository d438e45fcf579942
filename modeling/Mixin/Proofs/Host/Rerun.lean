/-
**A run on its own output changes nothing.**

What a run has written can be read again: its output is cut into lines where it was put together, the
declaration on each line is the one the rule left, and those declarations, a line each, are a stream.
The rule has nothing to add to any of them.

* `linesIn_join` — lines without an end of line inside them are found again.
* `Framed` — what is read off a line is what stands on it.
* `Loaded.parse_settled` — the declarations of an output are a stream again.
* **`rerun_unchanged`** — the second run.
-/

import Mixin.Proofs.Declaration.Concatenation
import Mixin.Proofs.Host.Output
import Mixin.Proofs.Rule.Settling

namespace Mixin

namespace Host

/-! ### Cutting an output into lines -/

section Cutting

/-- The lines of an output, each of which has its end: nothing stands behind the last end. -/
def linesIn (output : String) : List String :=
  let pieces := Text.lines output
  if pieces.getLast? = some "" then pieces.dropLast else pieces

/-- **Lines are found again** where they were put together. -/
theorem linesIn_join {lines : List String} (whole : ∀ line ∈ lines, '\n' ∉ line.toList) :
    linesIn (String.join (lines.map (· ++ "\n"))) = lines := by
  unfold linesIn
  rw [Text.lines_join whole]
  dsimp only
  rw [if_pos List.getLast?_concat, List.dropLast_concat]

end Cutting

/-! ### The next input -/

section Settled

/-- The compact text of the declaration on a line. -/
def declarationText (line : String) : Option String := (declarationOf line).map Json.compact

/-- The declarations on the lines of an output, each on a line of its own. -/
def nextInput (output : String) : String :=
  String.join (((linesIn output).filterMap declarationText).map (· ++ "\n"))

/-- What the next run reads: the declarations as the rule left them. -/
def Loaded.settled (loaded : Loaded) : Loaded :=
  { loaded with declarations := loaded.declarations.map loaded.rule.pass }

theorem Loaded.linesIn_lines (loaded : Loaded) :
    linesIn (String.join (loaded.lines.map (· ++ "\n"))) = loaded.lines := by
  refine linesIn_join fun line listed => ?_
  obtain ⟨entry, _, rfl⟩ := List.mem_map.mp listed
  exact Json.newline_not_mem_compact _

theorem Entry.declarationText_compact (entry : Entry) :
    declarationText entry.toJson.compact =
      some (entry.outcome.result entry.declaration).toJson.compact := by
  unfold declarationText
  rw [entry.declarationOf_compact]
  rfl

/-- The word for the outcome and the text of the declaration that are read off a line are the ones that
stand on it, between the fixed parts of the frame. -/
structure Framed (line word text : String) : Prop where
  outcome : outcomeOf line = some word
  declaration : declarationText line = some text
  stands : line = frame word text

theorem Entry.framed_compact (entry : Entry) :
    Framed entry.toJson.compact entry.word
      (entry.outcome.result entry.declaration).toJson.compact :=
  ⟨entry.outcomeOf_compact, entry.declarationText_compact, entry.compact_eq_frame⟩

/-- The lines of a run tell the declarations that the rule leaves. -/
theorem Loaded.declarationText_lines (loaded : Loaded) :
    loaded.lines.map declarationText =
      (loaded.settled.declarations.map fun d => d.toJson.compact).map some := by
  unfold lines entries settled
  rw [List.map_map, List.map_map, List.map_map, List.map_map]
  refine List.map_congr_left fun d _ => ?_
  simp only [Function.comp_apply, Entry.declarationText_compact]
  rfl

theorem Loaded.nextInput_lines (loaded : Loaded) :
    nextInput (String.join (loaded.lines.map (· ++ "\n"))) =
      String.join (loaded.settled.declarations.map fun d => d.toJson.compact ++ "\n") := by
  have texts : loaded.lines.filterMap declarationText =
      loaded.settled.declarations.map fun d => d.toJson.compact := by
    rw [← Function.id_comp declarationText, ← List.filterMap_map, loaded.declarationText_lines,
      List.filterMap_map, Function.id_comp, List.filterMap_some]
  unfold nextInput
  rw [loaded.linesIn_lines, texts, List.map_map]
  rfl

theorem blanks_nil : Json.Blanks [] := by decide

theorem blanks_newline : Json.Blanks ['\n'] := by decide

/-- A declaration on a line of its own. -/
def pieceOf (d : Declaration) : Stream.Piece := ⟨[], d, ['\n'], blanks_nil, blanks_newline⟩

/-- **The declarations of an output are a stream again.** -/
theorem Loaded.parse_settled {loaded : Loaded} (nonempty : loaded.declarations ≠ []) :
    Stream.parse (String.join
      (loaded.settled.declarations.map fun d => d.toJson.compact ++ "\n")) =
        .ok loaded.settled.declarations := by
  have pieces : String.join (loaded.settled.declarations.map fun d => d.toJson.compact ++ "\n") =
      Stream.sequenceText (loaded.settled.declarations.map pieceOf) := by
    unfold Stream.sequenceText
    rw [← String.toList_inj, String.toList_ofList, String.toList_join, List.flatMap_map,
      List.flatMap_map]
    refine congrArg (List.flatMap · _) (funext fun d => ?_)
    exact String.toList_append
  have declared : (loaded.settled.declarations.map pieceOf).map Stream.Piece.declaration =
      loaded.settled.declarations := by
    rw [List.map_map]
    exact List.map_id _
  have spaced := Stream.spaced_sequenceText (loaded.settled.declarations.map pieceOf)
  rw [declared, ← pieces] at spaced
  refine Stream.parse_sequence_of_spaced (fun none => nonempty ?_) spaced
  exact List.map_eq_nil_iff.mp none

variable {read : String → Except FileFault ByteArray} {input : ByteArray} {config : String}
  {hierarchy : Option String} {loaded : Loaded}

/-- The bytes of a text are the text again. -/
theorem fromUTF8?_toUTF8 (text : String) : String.fromUTF8? text.toUTF8 = some text := by
  unfold String.fromUTF8?
  rw [String.toUTF8_eq_toByteArray, dif_pos text.isValidUTF8]
  rfl

/-- The next run has the same files and reads what the rule left. -/
theorem Loads.settled (loads : Loads read input config hierarchy loaded) :
    Loads read (nextInput (String.join (loaded.lines.map (· ++ "\n")))).toUTF8 config hierarchy
      loaded.settled := by
  obtain ⟨text, _, parsed⟩ := loads.declarations
  refine ⟨loads.mapping, loads.hierarchy, _, fromUTF8?_toUTF8 _, ?_⟩
  rw [loaded.nextInput_lines]
  exact Loaded.parse_settled (Stream.readAll_of_parse parsed).2

/-- The rule leaves alone what it left. -/
theorem Loaded.entries_settled (loaded : Loaded) :
    loaded.settled.entries = loaded.settled.declarations.map fun d => ⟨d, .unchanged⟩ := by
  unfold entries
  refine List.map_congr_left fun after listed => ?_
  obtain ⟨d, _, rfl⟩ := List.mem_map.mp listed
  have nothing : loaded.rule.added (loaded.rule.pass d) = [] :=
    Rule.added_pass loaded.hierarchy.resolve_byHeading d
  exact congrArg _ (Rule.apply_eq_unchanged_iff.mpr nothing)

theorem Loaded.framed_of_mem_lines {line : String} (listed : line ∈ loaded.lines) :
    ∃ word text, Framed line word text := by
  obtain ⟨entry, _, rfl⟩ := List.mem_map.mp listed
  exact ⟨_, _, entry.framed_compact⟩

theorem Loaded.framed_settled {line : String} (listed : line ∈ loaded.settled.lines) :
    ∃ text, Framed line "unchanged" text := by
  unfold lines at listed
  rw [entries_settled, List.map_map] at listed
  obtain ⟨d, _, rfl⟩ := List.mem_map.mp listed
  exact ⟨_, Entry.framed_compact ⟨d, .unchanged⟩⟩

/-- The second run tells the same declarations. -/
theorem Loaded.declarationText_settled (loaded : Loaded) :
    loaded.settled.lines.map declarationText = loaded.lines.map declarationText := by
  have again : loaded.settled.settled.declarations = loaded.settled.declarations := by
    refine (List.map_congr_left fun after listed => ?_).trans (List.map_id _)
    obtain ⟨d, _, rfl⟩ := List.mem_map.mp listed
    exact Rule.pass_pass loaded.hierarchy.resolve_byHeading d
  rw [declarationText_lines, declarationText_lines, again]

end Settled

/-! ### The second run -/

section Again

/-- **A run on its own output changes nothing.**  Where a run exits with zero, every line that it writes
is a frame around the declaration that it holds; a run on those declarations with the same files exits
with zero and writes as many lines, framed alike around the same texts, with the word for no change; and
where only changed declarations are asked for it writes nothing. -/
theorem rerun_unchanged (read : String → Except FileFault ByteArray) (input : ByteArray)
    (config : String) (hierarchy : Option String) (words : List String) (output : String)
    (accepted : Request.ofWords words = .run ⟨config, hierarchy, false⟩)
    (zero : (answer read input words).code = 0) (written : (answer read input words).output = output) :
    (∀ line ∈ linesIn output, ∃ word text, Framed line word text) ∧
      (∀ again, Request.ofWords again = .run ⟨config, hierarchy, false⟩ →
        (answer read (nextInput output).toUTF8 again).code = 0 ∧
        (linesIn (answer read (nextInput output).toUTF8 again).output).length =
          (linesIn output).length ∧
        (∀ line ∈ linesIn (answer read (nextInput output).toUTF8 again).output,
          ∃ text, Framed line "unchanged" text) ∧
        (linesIn (answer read (nextInput output).toUTF8 again).output).map declarationText =
          (linesIn output).map declarationText) ∧
      ∀ again, Request.ofWords again = .run ⟨config, hierarchy, true⟩ →
        (answer read (nextInput output).toUTF8 again).code = 0 ∧
        (answer read (nextInput output).toUTF8 again).output = "" := by
  obtain ⟨loaded, loads⟩ := loads_of_code_eq_zero accepted zero
  rw [output_of_loads accepted loads] at written
  subst written
  have texts := loaded.declarationText_settled
  rw [loaded.linesIn_lines]
  refine ⟨fun line => Loaded.framed_of_mem_lines, fun again acceptedAgain => ?_,
    fun again acceptedAgain => ?_⟩
  · rw [output_of_loads acceptedAgain loads.settled, Loaded.linesIn_lines]
    refine ⟨(answer_of_loads acceptedAgain loads.settled).1, ?_, fun line => Loaded.framed_settled,
      texts⟩
    have sizes := congrArg List.length texts
    rwa [List.length_map, List.length_map] at sizes
  · have none : (loaded.settled.lines.filter fun line => outcomeOf line = some "mutated") = [] := by
      refine List.filter_eq_nil_iff.mpr fun line listed => ?_
      obtain ⟨text, framed⟩ := Loaded.framed_settled listed
      rw [framed.outcome]
      decide
    rw [mutated_output_of_loads acceptedAgain loads.settled, none]
    exact ⟨(answer_of_loads acceptedAgain loads.settled).1, rfl⟩

/-- What the run on the sample writes. -/
def Sample.output : String := (answer folder.read stream.toUTF8 plain).output

open Sample in
/-- The run on a stream of two declarations changes one of them; the run on what it wrote changes
none. -/
theorem sample_rerun :
    (run folder.read stream.toUTF8 ⟨"m.json", some "h.json", false⟩).toOption.map
        (fun report => report.entries.map Entry.word) = some ["mutated", "unchanged"] ∧
      (answer folder.read (nextInput output).toUTF8 plain).code = 0 ∧
      (linesIn (answer folder.read (nextInput output).toUTF8 plain).output).length =
        (linesIn output).length ∧
      (answer folder.read (nextInput output).toUTF8 onlyMutated).output = "" := by
  have accepted : Request.ofWords plain = .run ⟨"m.json", some "h.json", false⟩ := by decide +kernel
  have acceptedOnly : Request.ofWords onlyMutated = .run ⟨"m.json", some "h.json", true⟩ := by
    decide +kernel
  obtain ⟨_, whole, mutated⟩ := rerun_unchanged folder.read stream.toUTF8 "m.json" (some "h.json") plain
    output accepted (by decide +kernel) rfl
  exact ⟨by decide +kernel, (whole plain accepted).1, (whole plain accepted).2.1,
    (mutated onlyMutated acceptedOnly).2⟩

end Again

end Host

end Mixin
