/-
**The output of a run is complete, in order, and all or nothing.**

A run writes nothing before its mapping, its hierarchy and its stream have been read; then it writes
one line for each declaration of the stream, or for each that the rule has changed.  The line of an
entry is a fixed frame around the word for the outcome and the text of the declaration as it is now, and
it reads back as these two.

* `Entry.parse_compact`, `Entry.compact_eq_frame` — the line of an entry, as read and as written.
* `Holds`, `Loads` — what is in a file, and what a run reads before it writes.
* `loads_of_run`, `run_of_loads` — a run succeeds exactly when its input can be read.
* **`output_complete`** — exit codes and lines together.
-/

import Mathlib.Data.List.Forall2
import Mixin.Host.Folder
import Mixin.Host.Run
import Mixin.Proofs.Computation
import Mixin.Proofs.Declaration.RoundTrip

namespace Mixin

namespace Host

/-! ### Lines -/

section Lines

/-- What the object on a line holds under a key. -/
def memberOf (key line : String) : Option Json :=
  match Json.parse line with
  | .ok (.obj members) => members.lookup key
  | _ => none

/-- The outcome that a line tells of. -/
def outcomeOf (line : String) : Option String :=
  match memberOf "outcome" line with
  | some (.str word) => some word
  | _ => none

/-- The declaration on a line, as a value. -/
def declarationOf (line : String) : Option Json := memberOf "declaration" line

/-- **The line of an entry reads back as the entry.** -/
theorem Entry.parse_compact (entry : Entry) : Json.parse entry.toJson.compact = .ok entry.toJson := by
  have plain : Json.Plain Json.maxDepth entry.toJson := by
    intro member listed
    rcases List.mem_cons.mp listed with rfl | second
    · trivial
    · obtain rfl := List.mem_singleton.mp second
      exact plain_declaration (Json.maxDepth - 5) _
  have distinct : entry.toJson.collapse = entry.toJson := by
    unfold toJson
    rw [Json.collapse_obj_of_nodup (by simp)]
    simp only [List.map_cons, List.map_nil, Json.collapse_str, Declaration.collapse_toJson]
  rw [Json.parse_of_spaced plain (spaced_compact _), distinct]

theorem Entry.outcomeOf_compact (entry : Entry) :
    outcomeOf entry.toJson.compact = some entry.word := by
  unfold outcomeOf memberOf
  rw [entry.parse_compact]
  rfl

theorem Entry.declarationOf_compact (entry : Entry) :
    declarationOf entry.toJson.compact = some (entry.outcome.result entry.declaration).toJson := by
  unfold declarationOf memberOf
  rw [entry.parse_compact]
  rfl

/-- The fixed text of a line around the word for an outcome and the text of a declaration. -/
def frame (word text : String) : String :=
  "\x7b\"outcome\":\"" ++ word ++ "\",\"declaration\":" ++ text ++ "\x7d"

/-- **The line of an entry is the frame** around its word and the text of the declaration as it is
now. -/
theorem Entry.compact_eq_frame (entry : Entry) :
    entry.toJson.compact =
      frame entry.word (entry.outcome.result entry.declaration).toJson.compact := by
  have word : Json.writeString entry.word = '"' :: entry.word.toList ++ ['"'] := by
    unfold Entry.word
    cases entry.outcome.isMutated <;> decide
  unfold frame
  rw [← String.toList_inj]
  simp only [toJson, Json.compact, Json.write, Json.writeMembers, Json.commaJoin, word,
    String.toList_append, String.toList_ofList, List.append_assoc, List.cons_append]
  rfl

theorem Entry.word_eq_mutated_iff {entry : Entry} :
    entry.word = "mutated" ↔ entry.outcome.isMutated = true := by
  unfold word
  cases entry.outcome.isMutated <;> decide

end Lines

/-! ### Runs -/

section Runs

variable {read : String → Except FileFault ByteArray} {input : ByteArray}

/-- What a run reads before it writes. -/
structure Loaded where
  mapping : Logged Mapping
  hierarchy : Hierarchy
  declarations : List Declaration

/-- The rule of the run. -/
def Loaded.rule (loaded : Loaded) : Rule := ⟨loaded.mapping.value, loaded.hierarchy.resolve⟩

/-- The entries of the run, shown or not. -/
def Loaded.entries (loaded : Loaded) : List Entry :=
  loaded.declarations.map fun d => ⟨d, (loaded.rule.apply d).value⟩

/-- A file holds a text: its bytes can be read and are those of the text. -/
def Holds (read : String → Except FileFault ByteArray) (path text : String) : Prop :=
  ∃ bytes, read path = .ok bytes ∧ String.fromUTF8? bytes = some text

/-- The mapping is in its file, the hierarchy is in its file or empty when none is named, and the input
is text and a stream of declarations. -/
structure Loads (read : String → Except FileFault ByteArray) (input : ByteArray) (config : String)
    (hierarchy : Option String) (loaded : Loaded) : Prop where
  mapping : ∃ text, Holds read config text ∧ Mapping.load text config = .ok loaded.mapping
  hierarchy : match hierarchy with
    | none => loaded.hierarchy = .empty
    | some path => ∃ text, Holds read path text ∧ Hierarchy.load text path = .ok loaded.hierarchy
  declarations : ∃ text, String.fromUTF8? input = some text ∧
    Stream.parse text = .ok loaded.declarations

theorem readText_eq_ok_iff {path text : String} :
    readText read path = .ok text ↔ Holds read path text := by
  unfold readText Holds
  cases read path with
  | error fault => simp
  | ok bytes => cases found : String.fromUTF8? bytes <;> simp [found]

/-- Whatever is loaded from a file is loaded from the text that the file holds. -/
theorem readText_bind_eq_ok_iff {α : Type} {path : String}
    {next : String → Except ConfigurationError α} {result : α} :
    (readText read path >>= next) = .ok result ↔
      ∃ text, Holds read path text ∧ next text = .ok result := by
  constructor
  · intro done
    obtain ⟨text, held, loaded⟩ := bind_eq_ok done
    exact ⟨text, readText_eq_ok_iff.mp held, loaded⟩
  · rintro ⟨text, held, loaded⟩
    rw [readText_eq_ok_iff.mpr held]
    exact loaded

theorem loadMapping_eq_ok_iff {path : String} {mapping : Logged Mapping} :
    loadMapping read path = .ok mapping ↔
      ∃ text, Holds read path text ∧ Mapping.load text path = .ok mapping :=
  readText_bind_eq_ok_iff

theorem loadHierarchy_eq_ok_iff {path : String} {hierarchy : Hierarchy} :
    loadHierarchy read path = .ok hierarchy ↔
      ∃ text, Holds read path text ∧ Hierarchy.load text path = .ok hierarchy :=
  readText_bind_eq_ok_iff

theorem hierarchyOf_eq_ok_iff {path : Option String} {hierarchy : Hierarchy} :
    hierarchyOf read path = .ok hierarchy ↔
      match path with
      | none => hierarchy = .empty
      | some path => ∃ text, Holds read path text ∧ Hierarchy.load text path = .ok hierarchy := by
  cases path with
  | none => exact ⟨fun same => (Except.ok.inj same).symm, fun same => congrArg Except.ok same.symm⟩
  | some path =>
    refine Iff.trans ?_ loadHierarchy_eq_ok_iff
    unfold hierarchyOf
    cases found : loadHierarchy read path <;> simp [found]

theorem declarationsOf_eq_ok_iff {ds : List Declaration} :
    declarationsOf input = .ok ds ↔
      ∃ text, String.fromUTF8? input = some text ∧ Stream.parse text = .ok ds := by
  unfold declarationsOf
  cases String.fromUTF8? input with
  | none => simp
  | some text => cases found : Stream.parse text <;> simp [found]

/-- A run that comes to an end has read all of its input. -/
theorem loads_of_run {options : Options} {report : Report}
    (done : run read input options = .ok report) :
    ∃ loaded, Loads read input options.config options.hierarchy loaded := by
  unfold run at done
  cases mapped : loadMapping read options.config with
  | error error =>
    rw [mapped] at done
    cases done
  | ok mapping =>
    rw [mapped] at done
    obtain ⟨_, same, done⟩ := bind_eq_ok done
    cases same
    obtain ⟨hierarchy, ordered, done⟩ := bind_eq_ok done
    obtain ⟨declarations, streamed, _⟩ := bind_eq_ok done
    exact ⟨⟨mapping, hierarchy, declarations⟩, loadMapping_eq_ok_iff.mp mapped,
      hierarchyOf_eq_ok_iff.mp ordered, declarationsOf_eq_ok_iff.mp streamed⟩

/-- A run whose input can be read shows its entries. -/
theorem run_of_loads {options : Options} {loaded : Loaded}
    (loads : Loads read input options.config options.hierarchy loaded) :
    ∃ events, run read input options = .ok ⟨loaded.entries.filter fun entry =>
      entry.outcome.isMutated || !options.onlyMutated, events⟩ := by
  have mapped := loadMapping_eq_ok_iff.mpr loads.mapping
  have ordered := hierarchyOf_eq_ok_iff.mpr loads.hierarchy
  have streamed := declarationsOf_eq_ok_iff.mpr loads.declarations
  unfold run
  rw [mapped, ordered, streamed]
  refine ⟨_, congrArg Except.ok (congrArg (Report.mk · _) ?_)⟩
  unfold report Loaded.entries
  dsimp only
  rw [List.map_map]
  rfl

variable {words : List String} {options : Options}

/-- **A run whose input can be read** exits with zero and writes the lines of its entries. -/
theorem answer_of_loads (accepted : Request.ofWords words = .run options) {loaded : Loaded}
    (loads : Loads read input options.config options.hierarchy loaded) :
    (answer read input words).code = 0 ∧
      (answer read input words).output = String.join ((loaded.entries.filter fun entry =>
        entry.outcome.isMutated || !options.onlyMutated).map Entry.line) := by
  obtain ⟨events, done⟩ := run_of_loads loads
  unfold answer
  rw [accepted]
  dsimp only
  rw [done]
  exact ⟨rfl, rfl⟩

/-- **A run whose input cannot be read** exits with one and writes nothing. -/
theorem answer_of_not_loads (accepted : Request.ofWords words = .run options)
    (fails : ∀ loaded, ¬ Loads read input options.config options.hierarchy loaded) :
    (answer read input words).code = 1 ∧ (answer read input words).output = "" := by
  unfold answer
  rw [accepted]
  dsimp only
  split
  · rename_i report done
    obtain ⟨loaded, loads⟩ := loads_of_run done
    exact absurd loads (fails loaded)
  · exact ⟨rfl, rfl⟩

theorem loads_of_code_eq_zero (accepted : Request.ofWords words = .run options)
    (zero : (answer read input words).code = 0) :
    ∃ loaded, Loads read input options.config options.hierarchy loaded := by
  by_contra none
  rw [(answer_of_not_loads accepted (not_exists.mp none)).1] at zero
  cases zero

end Runs

/-! ### Outputs -/

section Outputs

/-- A line tells what the rule makes of a declaration: the new declaration where it is changed, the old
one where it is not. -/
def Tells (rule : Rule) (d : Declaration) (line : String) : Prop :=
  '\n' ∉ line.toList ∧ ∃ value, declarationOf line = some value ∧
    match (rule.apply d).value with
    | .mutated after => outcomeOf line = some "mutated" ∧ Declaration.ofJson value = .ok after
    | .unchanged => outcomeOf line = some "unchanged" ∧ Declaration.ofJson value = .ok d

theorem tells_compact (rule : Rule) (d : Declaration) :
    Tells rule d (Entry.mk d (rule.apply d).value).toJson.compact := by
  refine ⟨Json.newline_not_mem_compact _, _, Entry.declarationOf_compact _, ?_⟩
  rw [Entry.outcomeOf_compact]
  cases (rule.apply d).value with
  | unchanged => exact ⟨rfl, Declaration.ofJson_toJson d⟩
  | mutated after => exact ⟨rfl, Declaration.ofJson_toJson after⟩

/-- The lines of a run without their ends. -/
def Loaded.lines (loaded : Loaded) : List String := loaded.entries.map fun entry => entry.toJson.compact

theorem Loaded.tells_lines (loaded : Loaded) :
    List.Forall₂ (Tells loaded.rule) loaded.declarations loaded.lines := by
  unfold lines entries
  rw [List.map_map, List.forall₂_map_right_iff, List.forall₂_same]
  exact fun d _ => tells_compact loaded.rule d

theorem Loaded.lines_mutated (loaded : Loaded) :
    (loaded.lines.filter fun line => outcomeOf line = some "mutated") =
      (loaded.entries.filter fun entry => entry.outcome.isMutated).map fun entry =>
        entry.toJson.compact := by
  unfold lines
  rw [List.filter_map]
  refine congrArg _ (List.filter_congr fun entry _ => ?_)
  simp only [Function.comp_apply, Entry.outcomeOf_compact, Option.some.injEq,
    Entry.word_eq_mutated_iff, Bool.decide_eq_true]

variable {read : String → Except FileFault ByteArray} {input : ByteArray} {config : String}
  {hierarchy : Option String} {loaded : Loaded} {words : List String}

theorem output_of_loads (accepted : Request.ofWords words = .run ⟨config, hierarchy, false⟩)
    (loads : Loads read input config hierarchy loaded) :
    (answer read input words).output = String.join (loaded.lines.map (· ++ "\n")) := by
  rw [(answer_of_loads accepted loads).2, List.filter_eq_self.mpr fun entry _ => by simp]
  unfold Loaded.lines
  rw [List.map_map]
  rfl

theorem mutated_output_of_loads
    (accepted : Request.ofWords words = .run ⟨config, hierarchy, true⟩)
    (loads : Loads read input config hierarchy loaded) :
    (answer read input words).output = String.join
      ((loaded.lines.filter fun line => outcomeOf line = some "mutated").map (· ++ "\n")) := by
  rw [(answer_of_loads accepted loads).2, Loaded.lines_mutated, List.map_map]
  simp only [Bool.not_true, Bool.or_false]
  rfl

/-- **The output of a run is complete, in order, and all or nothing.**  A run exits with zero exactly
when its mapping, its hierarchy and its stream can be read, and otherwise with one and without output.
When they can be read there is a line for each declaration, in order; the output is those lines, each
with its end, or where only changed declarations are asked for those of them that tell of a change. -/
theorem output_complete (read : String → Except FileFault ByteArray) (input : ByteArray)
    (config : String) (hierarchy : Option String) :
    (∀ words onlyMutated, Request.ofWords words = .run ⟨config, hierarchy, onlyMutated⟩ →
      ((answer read input words).code = 0 ↔ ∃ loaded, Loads read input config hierarchy loaded) ∧
      ((answer read input words).code ≠ 0 →
        (answer read input words).code = 1 ∧ (answer read input words).output = "")) ∧
    ∀ loaded, Loads read input config hierarchy loaded →
      ∃ lines, List.Forall₂ (Tells loaded.rule) loaded.declarations lines ∧
        (∀ words, Request.ofWords words = .run ⟨config, hierarchy, false⟩ →
          (answer read input words).output = String.join (lines.map (· ++ "\n"))) ∧
        ∀ words, Request.ofWords words = .run ⟨config, hierarchy, true⟩ →
          (answer read input words).output = String.join
            ((lines.filter fun line => outcomeOf line = some "mutated").map (· ++ "\n")) := by
  refine ⟨fun words onlyMutated accepted => ⟨⟨loads_of_code_eq_zero accepted, ?_⟩, fun failed => ?_⟩,
    fun loaded loads => ⟨loaded.lines, loaded.tells_lines, ?_, ?_⟩⟩
  · rintro ⟨loaded, loads⟩
    exact (answer_of_loads accepted loads).1
  · refine answer_of_not_loads accepted fun loaded loads => ?_
    exact failed (answer_of_loads accepted loads).1
  · exact fun words accepted => output_of_loads accepted loads
  · exact fun words accepted => mutated_output_of_loads accepted loads

namespace Sample

/-- A folder with a mapping of one base, a hierarchy of one class below it, and a subfolder. -/
def folder : Folder where
  nodes := [("m.json", .file "\x7b\"Base\":[\"Marked\"]\x7d".toUTF8),
    ("h.json", .file "\x7b\"Middle\":\"Base\"\x7d".toUTF8), ("old", .folder)]

/-- A class below the base with a line break in one of its members, and an anonymous class. -/
def stream : String :=
  "\x7b\"name\":\"A\",\"extends\":\"Middle\",\"stmts\":[[\"member\",\"\\n\"]]\x7d\n\x7b\x7d"

/-- The command line, and that for changed declarations only. -/
def plain : List String := ["--config", "m.json", "--hierarchy", "h.json"]
def onlyMutated : List String := ["--only-mutated", "--hierarchy=h.json", "--config", "m.json"]

/-- A command line that names the subfolder where the hierarchy should be. -/
def astray : List String := ["--config", "m.json", "--hierarchy", "old"]

end Sample

open Sample in
/-- A run on two declarations, with all of its lines and with those of changed declarations only; an
array without declarations and a subfolder in the place of the hierarchy come to nothing. -/
theorem sample_output :
    (∃ (loaded : Loaded) (lines : List String),
      Loads folder.read stream.toUTF8 "m.json" (some "h.json") loaded ∧
      List.Forall₂ (Tells loaded.rule) loaded.declarations lines ∧
      (answer folder.read stream.toUTF8 plain).output = String.join (lines.map (· ++ "\n")) ∧
      (answer folder.read stream.toUTF8 onlyMutated).output = String.join
        ((lines.filter fun line => outcomeOf line = some "mutated").map (· ++ "\n"))) ∧
      ((answer folder.read "[]".toUTF8 plain).code = 1 ∧
        (answer folder.read "[]".toUTF8 plain).output = "") ∧
      (answer folder.read stream.toUTF8 astray).code = 1 ∧
        (answer folder.read stream.toUTF8 astray).output = "" := by
  have accepted : Request.ofWords plain = .run ⟨"m.json", some "h.json", false⟩ := by decide +kernel
  have acceptedOnly : Request.ofWords onlyMutated = .run ⟨"m.json", some "h.json", true⟩ := by
    decide +kernel
  have acceptedAstray : Request.ofWords astray = .run ⟨"m.json", some "old", false⟩ := by
    decide +kernel
  obtain ⟨codes, outputs⟩ := output_complete folder.read stream.toUTF8 "m.json" (some "h.json")
  obtain ⟨loaded, loads⟩ := (codes plain false accepted).1.mp (by decide +kernel)
  obtain ⟨lines, told, whole, mutated⟩ := outputs loaded loads
  obtain ⟨emptyCodes, _⟩ := output_complete folder.read "[]".toUTF8 "m.json" (some "h.json")
  obtain ⟨astrayCodes, _⟩ := output_complete folder.read stream.toUTF8 "m.json" (some "old")
  exact ⟨⟨loaded, lines, loads, told, whole plain accepted, mutated onlyMutated acceptedOnly⟩,
    (emptyCodes plain false accepted).2 (by decide +kernel),
    (astrayCodes astray false acceptedAstray).2 (by decide +kernel)⟩

end Outputs

end Host

end Mixin
