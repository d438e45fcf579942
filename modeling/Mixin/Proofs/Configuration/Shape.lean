/-
**Shapes are checked twice, and alike.**

A document is held against its shape when it is read, and its parts are looked at once more when texts
are taken out of it.  Both look for the same things: what has the shape converts, and what has not is
refused for its shape, whatever its names are.  So behind the first check the second never fails.

* `Schema.Admits`, `Shape.schema` — schema documents and what their keywords mean;
  `violations_eq_nil_iff`: a shape finds nothing to object to exactly where its schema admits a value.
* `Follows result violations` — a conversion goes by a shape: it succeeds if there are no violations
  and otherwise reports a misfit.
* `ShapeFree result` — a result that is not an error of the shape; all that comes after a draft is.
* **`shape_checks_agree`** — the two checks, for values and for texts.
-/

import Mixin.Hierarchy.Load
import Mixin.Mapping.Load

namespace Mixin

/-! ### Schemas -/

section Schemas

namespace Schema

/-- The type of a value, by the name that schemas have for it. -/
def typeOf : Json → String
  | .null => "null"
  | .bool _ => "boolean"
  | .num _ => "number"
  | .str _ => "string"
  | .arr _ => "array"
  | .obj _ => "object"

mutual

/-- The values that a schema admits: `type` asks for a type, `items` for a schema that admits every
item of an array, `additionalProperties` for one that admits every member of an object; `items` says
nothing of what is no array, `additionalProperties` nothing of what is no object.  Any other keyword
is a remark. -/
def Admits : Json → Json → Prop
  | .obj keywords, value => AdmitsAll keywords value
  | .bool allowed, _ => allowed = true
  | _, _ => True

/-- The values that every keyword of a schema admits. -/
def AdmitsAll : List (String × Json) → Json → Prop
  | [], _ => True
  | (keyword, argument) :: rest, value =>
    (keyword = "type" → argument = .str (typeOf value)) ∧
      (keyword = "items" → ∀ items, value = .arr items → ∀ item ∈ items, Admits argument item) ∧
      (keyword = "additionalProperties" →
        ∀ members, value = .obj members → ∀ pair ∈ members, Admits argument pair.2) ∧
      AdmitsAll rest value

end

end Schema

namespace Shape

/-- The schema document of a shape. -/
def schema : Shape → Json
  | text => .obj [("type", .str "string")]
  | list item => .obj [("type", .str "array"), ("items", item.schema)]
  | record member => .obj [("type", .str "object"), ("additionalProperties", member.schema)]

/-- **A shape finds no violation exactly where its schema admits the value.** -/
theorem violations_eq_nil_iff (shape : Shape) (value : Json) :
    shape.violations value = [] ↔ Schema.Admits shape.schema value := by
  induction shape generalizing value with
  | text => cases value <;> simp [violations, schema, Schema.Admits, Schema.AdmitsAll, Schema.typeOf]
  | list item ih =>
    cases value <;>
      simp [violations, schema, Schema.Admits, Schema.AdmitsAll, Schema.typeOf, ih]
  | record member ih =>
    cases value <;>
      simp [violations, schema, Schema.Admits, Schema.AdmitsAll, Schema.typeOf, ih]

end Shape

theorem checkShape_eq_ok_iff (shape : Shape) (origin : String) (value : Json) :
    checkShape shape origin value = .ok () ↔ shape.violations value = [] := by
  unfold checkShape
  cases shape.violations value <;> simp

end Schemas

/-! ### Conversions that go by a shape -/

section Conversions

variable {α β : Type}

/-- A conversion goes by a shape: without violations it succeeds, with violations it reports a
misfit. -/
def Follows (result : Except ConfigurationError α) (violations : List Violation) : Prop :=
  (violations = [] ∧ ∃ value, result = .ok value) ∨
    (violations ≠ [] ∧ ∃ misfit, result = .error (.wrongShape misfit))

theorem Follows.misfit {misfit : Misfit} {violation : Violation} {more : List Violation} :
    Follows (.error (.wrongShape misfit) : Except ConfigurationError α) (violation :: more) :=
  .inr ⟨List.cons_ne_nil _ _, misfit, rfl⟩

/-- What converts has no violations. -/
theorem Follows.violations_eq_nil {result : Except ConfigurationError α} {violations : List Violation}
    (follows : Follows result violations) {value : α} (converts : result = .ok value) :
    violations = [] := by
  rcases follows with ⟨none, _⟩ | ⟨_, misfit, refused⟩
  · exact none
  · rw [refused] at converts
    cases converts

/-- What goes on with the result of a conversion goes by what is left of the violations. -/
theorem Follows.bind {first : Except ConfigurationError α}
    {next : α → Except ConfigurationError β} {violations more : List Violation}
    (follows : Follows first violations) (goesOn : ∀ value, Follows (next value) more) :
    Follows (first >>= next) (violations ++ more) := by
  rcases follows with ⟨none, value, rfl⟩ | ⟨some, misfit, rfl⟩
  · rw [none, List.nil_append]
    exact goesOn value
  · exact .inr ⟨by simp [some], misfit, rfl⟩

/-- Turning the result into something else changes nothing. -/
theorem Follows.map {first : Except ConfigurationError α} {violations : List Violation}
    (follows : Follows first violations) (f : α → β) :
    Follows (first >>= fun value => .ok (f value)) violations := by
  have finished : ∀ value, Follows (.ok (f value) : Except ConfigurationError β) [] :=
    fun value => .inl ⟨rfl, f value, rfl⟩
  simpa using follows.bind finished

theorem Mapping.follows_draftMarkers (base : String) (items : List Json) :
    Follows (draftMarkers base items) (items.flatMap Shape.text.violations) := by
  induction items with
  | nil => exact .inl ⟨rfl, [], rfl⟩
  | cons item rest ih =>
    cases item with
    | str name => exact ih.map (name :: ·)
    | _ => exact .misfit

theorem Mapping.follows_draftEntries (members : List (String × Json)) :
    Follows (draftEntries members)
      (members.flatMap fun pair => (Shape.list .text).violations pair.2) := by
  induction members with
  | nil => exact .inl ⟨rfl, [], rfl⟩
  | cons pair rest ih =>
    obtain ⟨base, value⟩ := pair
    cases value with
    | arr items =>
      exact (follows_draftMarkers base items).bind fun names => ih.map ((base, names) :: ·)
    | _ => exact .misfit

/-- **Taking the draft out of a mapping document goes by the shape of mappings.** -/
theorem Mapping.follows_draftOfJson (value : Json) :
    Follows (draftOfJson value) (Shape.mapping.violations value) := by
  cases value with
  | obj members => exact (follows_draftEntries members).map Table.ofPairs
  | _ => exact .misfit

theorem Hierarchy.follows_draftEntries (members : List (String × Json)) :
    Follows (draftEntries members) (members.flatMap fun pair => Shape.text.violations pair.2) := by
  induction members with
  | nil => exact .inl ⟨rfl, [], rfl⟩
  | cons pair rest ih =>
    obtain ⟨name, value⟩ := pair
    cases value with
    | str parent => exact ih.map ((name, parent) :: ·)
    | _ => exact .misfit

/-- **Taking the draft out of a hierarchy document goes by the shape of hierarchies.** -/
theorem Hierarchy.follows_draftOfJson (value : Json) :
    Follows (draftOfJson value) (Shape.hierarchy.violations value) := by
  cases value with
  | obj members => exact (follows_draftEntries members).map Table.ofPairs
  | _ => exact .misfit

end Conversions

/-! ### Behind the draft -/

section Drafts

variable {α β : Type}

/-- A result that is not an error of the shape. -/
def ShapeFree (result : Except ConfigurationError α) : Prop :=
  ∀ misfit, result ≠ .error (.wrongShape misfit)

theorem ShapeFree.ok (value : α) : ShapeFree (.ok value : Except ConfigurationError α) := by
  intro misfit same
  cases same

theorem ShapeFree.bind {first : Except ConfigurationError α}
    {next : α → Except ConfigurationError β} (free : ShapeFree first)
    (goesOn : ∀ value, ShapeFree (next value)) : ShapeFree (first >>= next) := by
  cases first with
  | ok value => exact goesOn value
  | error why => exact fun misfit same => free misfit (by cases same; rfl)

theorem Mapping.shapeFree_parseBase (raw : String) : ShapeFree (parseBase raw) := by
  intro misfit same
  unfold parseBase at same
  split at same
  · cases same
  · split at same <;> cases same

theorem Mapping.shapeFree_parseMarkers (base : TypeName) (raws : List String) :
    ShapeFree (parseMarkers base raws) := by
  induction raws with
  | nil => exact .ok []
  | cons raw rest ih =>
    rw [parseMarkers]
    split
    · exact fun misfit same => by cases same
    · exact ih.bind fun markers => .ok _

theorem Mapping.shapeFree_addEntry (mapping : Mapping) (raw : String × List String) :
    ShapeFree (mapping.addEntry raw) := by
  refine (shapeFree_parseBase raw.1).bind fun base => ?_
  by_cases known : base ∈ mapping.bases
  · rw [dif_pos known]
    exact fun misfit same => by cases same
  · rw [dif_neg known]
    exact (shapeFree_parseMarkers base raw.2).bind fun markers => .ok _

theorem Mapping.shapeFree_addEntries (mapping : Mapping) (raws : List (String × List String)) :
    ShapeFree (addEntries mapping raws) := by
  induction raws generalizing mapping with
  | nil => exact .ok _
  | cons raw rest ih =>
    exact (mapping.shapeFree_addEntry raw).bind fun first => (ih first.value).bind fun others => .ok _

theorem Hierarchy.shapeFree_parseName (raw : String) : ShapeFree (parseName raw) := by
  intro misfit same
  unfold parseName at same
  split at same <;> cases same

theorem Hierarchy.shapeFree_addEntries (hierarchy : Hierarchy) (raws : List (String × String)) :
    ShapeFree (addEntries hierarchy raws) := by
  induction raws generalizing hierarchy with
  | nil => exact .ok _
  | cons raw rest ih =>
    have entry : ShapeFree (hierarchy.addEntry raw) := by
      refine (shapeFree_parseName raw.1).bind fun name => (shapeFree_parseName raw.2).bind fun parent => ?_
      by_cases known : name ∈ hierarchy.classes
      · rw [if_pos known]
        exact fun misfit same => by cases same
      · rw [if_neg known]
        exact .ok _
    exact entry.bind fun grown => ih grown

/-- **A mapping value is refused for its shape exactly when it violates the shape**, whatever may be
wrong with its names. -/
theorem Mapping.ofJson_wrongShape_iff (value : Json) :
    (∃ misfit, ofJson value = .error (.wrongShape misfit)) ↔ Shape.mapping.violations value ≠ [] := by
  rcases follows_draftOfJson value with ⟨none, draft, converted⟩ | ⟨some, misfit, refused⟩
  · have built : ofJson value = ofDraft draft := by
      unfold ofJson
      rw [converted]
      rfl
    have free : ShapeFree (ofJson value) := built ▸ shapeFree_addEntries empty draft.pairs
    simpa [none, ShapeFree] using free
  · have stopped : ofJson value = .error (.wrongShape misfit) := by
      unfold ofJson
      rw [refused]
      rfl
    simp [stopped, some]

end Drafts

/-! ### Documents -/

section Documents

/-- **What becomes of a text**: it is not JSON, or its value violates the shape, or the value is the
document. -/
theorem readDocument_cases (shape : Shape) (text origin : String) :
    (∃ fault, Json.parse text = .error fault ∧
        readDocument shape text origin = .error (.malformed origin text fault)) ∨
      ∃ value, Json.parse text = .ok value ∧
        ((shape.violations value ≠ [] ∧ readDocument shape text origin =
            .error (.misshapen origin (shape.violations value))) ∨
          (shape.violations value = [] ∧ readDocument shape text origin = .ok value)) := by
  cases parsed : Json.parse text with
  | error fault =>
    refine .inl ⟨fault, rfl, ?_⟩
    unfold readDocument
    rw [parsed]
  | ok value =>
    refine .inr ⟨value, rfl, ?_⟩
    cases found : shape.violations value with
    | nil =>
      refine .inr ⟨rfl, ?_⟩
      simp only [readDocument, parsed, checkShape, found, bind, Except.bind]
    | cons violation more =>
      refine .inl ⟨List.cons_ne_nil _ _, ?_⟩
      simp only [readDocument, parsed, checkShape, found, bind, Except.bind]

/-- Behind the check of a hierarchy document its draft is always found. -/
theorem Hierarchy.load_of_readDocument {text origin : String} {value : Json}
    (read : readDocument .hierarchy text origin = .ok value) :
    ∃ draft, draftOfJson value = .ok draft ∧ load text origin = ofDraft draft := by
  have fits : Shape.hierarchy.violations value = [] := by
    rcases readDocument_cases .hierarchy text origin with ⟨fault, _, failed⟩ |
      ⟨other, _, ⟨_, failed⟩ | ⟨none, done⟩⟩
    · rw [failed] at read
      cases read
    · rw [failed] at read
      cases read
    · rw [done] at read
      cases read
      exact none
  rcases follows_draftOfJson value with ⟨_, draft, converted⟩ | ⟨some, _⟩
  · refine ⟨draft, converted, ?_⟩
    unfold load ofJson
    rw [read]
    show (draftOfJson value >>= ofDraft) = _
    rw [converted]
    rfl
  · exact absurd fits some

theorem Hierarchy.shapeFree_load (text origin : String) : ShapeFree (load text origin) := by
  rcases readDocument_cases .hierarchy text origin with ⟨fault, _, failed⟩ |
    ⟨value, _, ⟨_, failed⟩ | ⟨_, done⟩⟩
  · intro misfit same
    simp only [load, failed, bind, Except.bind, Except.error.injEq, reduceCtorEq] at same
  · intro misfit same
    simp only [load, failed, bind, Except.bind, Except.error.injEq, reduceCtorEq] at same
  · obtain ⟨draft, _, loaded⟩ := load_of_readDocument done
    rw [loaded]
    exact shapeFree_addEntries empty draft.pairs

/-- **The two checks of a shape agree.**

* A mapping value passes the check of a document exactly when its schema admits it, and exactly when
  building a mapping from it does not end in an error of the shape; so that error comes before any
  error of a name, wherever the two stand.
* Hence loading a mapping from a text ends in an error of the JSON text, or in one of the document, or
  in what the value gives, which is never an error of the shape.
* Loading a hierarchy never ends in an error of the shape either: a value that has passed the check of
  a document converts to a draft. -/
theorem shape_checks_agree :
    (∀ origin value,
      (checkShape .mapping origin value = .ok () ↔ Schema.Admits Shape.mapping.schema value) ∧
      (checkShape .mapping origin value = .ok () ↔
        ¬ ∃ misfit, Mapping.ofJson value = .error (.wrongShape misfit))) ∧
    (∀ text origin,
      (¬ ∃ misfit, Mapping.load text origin = .error (.wrongShape misfit)) ∧
      ((∃ fault, Json.parse text = .error fault ∧
          Mapping.load text origin = .error (.malformed origin text fault)) ∨
        ∃ value, Json.parse text = .ok value ∧
          ((¬ Schema.Admits Shape.mapping.schema value ∧ Mapping.load text origin =
              .error (.misshapen origin (Shape.mapping.violations value))) ∨
            (Schema.Admits Shape.mapping.schema value ∧
              Mapping.load text origin = Mapping.ofJson value)))) ∧
    (∀ origin value,
      checkShape .hierarchy origin value = .ok () ↔ Schema.Admits Shape.hierarchy.schema value) ∧
    (∀ text origin,
      (¬ ∃ misfit, Hierarchy.load text origin = .error (.wrongShape misfit)) ∧
      ∀ value, readDocument .hierarchy text origin = .ok value →
        ∃ draft, Hierarchy.draftOfJson value = .ok draft ∧
          Hierarchy.load text origin = Hierarchy.ofDraft draft) := by
  refine ⟨fun origin value => ⟨?_, ?_⟩, fun text origin => ?_, fun origin value => ?_,
    fun text origin => ⟨?_, fun value => Hierarchy.load_of_readDocument⟩⟩
  · rw [checkShape_eq_ok_iff, Shape.violations_eq_nil_iff]
  · rw [checkShape_eq_ok_iff, Mapping.ofJson_wrongShape_iff]
    exact Classical.not_not.symm
  · rcases readDocument_cases .mapping text origin with ⟨fault, parsed, failed⟩ |
      ⟨value, parsed, ⟨some, failed⟩ | ⟨none, done⟩⟩
    · have stopped : Mapping.load text origin = .error (.malformed origin text fault) := by
        simp only [Mapping.load, failed, bind, Except.bind]
      exact ⟨by simp [stopped], .inl ⟨fault, parsed, stopped⟩⟩
    · have stopped : Mapping.load text origin =
          .error (.misshapen origin (Shape.mapping.violations value)) := by
        simp only [Mapping.load, failed, bind, Except.bind]
      refine ⟨by simp [stopped], .inr ⟨value, parsed, .inl ⟨?_, stopped⟩⟩⟩
      rwa [← Shape.violations_eq_nil_iff]
    · have goesOn : Mapping.load text origin = Mapping.ofJson value := by
        simp only [Mapping.load, done, bind, Except.bind]
      refine ⟨?_, .inr ⟨value, parsed, .inr ⟨(Shape.violations_eq_nil_iff _ _).mp none, goesOn⟩⟩⟩
      rw [goesOn, Mapping.ofJson_wrongShape_iff]
      exact fun some => some none
  · rw [checkShape_eq_ok_iff, Shape.violations_eq_nil_iff]
  · rintro ⟨misfit, same⟩
    exact Hierarchy.shapeFree_load text origin misfit same

/-- A misspelt base, and behind it markers that are no list: the error is one of the shape.  A misspelt
parent alone leaves the shape of a hierarchy as it should be, and the draft is found. -/
theorem shape_before_names :
    (∃ misfit, Mapping.ofJson (.obj [("1", .arr []), ("A", .str "T")]) =
      .error (.wrongShape misfit)) ∧
    ∃ value draft, readDocument .hierarchy "\x7b\"A\":\"1\"\x7d" "inline" = .ok value ∧
      Hierarchy.draftOfJson value = .ok draft ∧
      Hierarchy.load "\x7b\"A\":\"1\"\x7d" "inline" = Hierarchy.ofDraft draft := by
  constructor
  · have refused : ¬ checkShape .mapping "inline" (.obj [("1", .arr []), ("A", .str "T")]) = .ok () :=
      nofun
    rw [(shape_checks_agree.1 "inline" _).2, Classical.not_not] at refused
    exact refused
  · have accepted : (readDocument .hierarchy "\x7b\"A\":\"1\"\x7d" "inline").toOption.isSome = true := by
      decide +kernel
    cases read : readDocument .hierarchy "\x7b\"A\":\"1\"\x7d" "inline" with
    | error why =>
      rw [read] at accepted
      cases accepted
    | ok value =>
      obtain ⟨draft, found, loaded⟩ := (shape_checks_agree.2.2.2 _ _).2 value read
      exact ⟨value, draft, rfl, found, loaded⟩

end Documents

end Mixin
