/-
**Every violation of a shape is told once, on a line of its own.**

A place in a document is the way down to it, by the positions of members and items; ways are compared
as words are, so that their order is that of the text.  A place offends when its value is not of the
type that is due there while all the values around it are.  The check of a shape tells of the offending
places, each once and in order, and since a written value stands on one line, what it tells can be
taken apart again at the line breaks.

* `Shape.Offends` — the offending places of a document, for any shape;
  `Mapping.OffendsAt`, `Hierarchy.OffendsAt` — the same, spelt out for the two kinds of document.
* `Shape.exists_places` — the violations found are the offending places in order.
* `refusedByLine_of_violations` — the lines of a message are the messages of the violations.
* **`violations_told`** — which documents pass, and what is told of those that do not.
-/

import Mixin.Proofs.Configuration.Admission
import Mixin.Proofs.Configuration.Shape
import Mixin.Proofs.Json.SingleLine

namespace Mixin

open Schema (typeOf)

/-! ### Places -/

namespace Json

/-- The values right inside a value, in document order. -/
def parts : Json → List Json
  | arr items => items
  | obj members => members.map Prod.snd
  | _ => []

/-- The value at a place. -/
def at? : Json → List Nat → Option Json
  | value, [] => some value
  | value, position :: place => value.parts[position]?.bind fun part => part.at? place

end Json

namespace Shape

/-- The type that a shape asks for. -/
def type : Shape → String
  | text => "string"
  | list _ => "array"
  | record _ => "object"

/-- The shape of what is right inside a value. -/
def part? : Shape → Option Shape
  | text => none
  | list item => some item
  | record member => some member

/-- The types that a shape asks for, from outside in. -/
def types : Shape → List String
  | text => ["string"]
  | list item => "array" :: item.types
  | record member => "object" :: member.types

/-- **A place offends**: its value is not of the type due there, and the values around it are. -/
def Offends : Shape → Json → List Nat → Prop
  | shape, value, [] => typeOf value ≠ shape.type
  | shape, value, position :: place => typeOf value = shape.type ∧
      ∃ inner part, shape.part? = some inner ∧ value.parts[position]? = some part ∧
        inner.Offends part place

/-- A violation is told of a place: it has the value that stands there and the type due there. -/
def Shows (shape : Shape) (value : Json) (violation : Violation) (place : List Nat) : Prop :=
  value.at? place = some violation.value ∧ shape.types[place.length]? = some violation.wanted

/-- The places are those that offend, each once and in document order, and the violations found are
told of them. -/
structure Places (shape : Shape) (value : Json) (places : List (List Nat)) : Prop where
  inOrder : places.Pairwise (· < ·)
  exact : ∀ place, place ∈ places ↔ shape.Offends value place
  told : List.Forall₂ (shape.Shows value) (shape.violations value) places

/-! ### The violations found -/

section Found

variable {shape inner : Shape} {value : Json}

theorem typeOf_eq_string_iff : typeOf value = "string" ↔ ∃ text, value = .str text := by
  cases value <;> simp [typeOf]

theorem typeOf_eq_array_iff : typeOf value = "array" ↔ ∃ items, value = .arr items := by
  cases value <;> simp [typeOf]

theorem typeOf_eq_object_iff : typeOf value = "object" ↔ ∃ members, value = .obj members := by
  cases value <;> simp [typeOf]

theorem types_eq (shape : Shape) : shape.types = shape.type :: (shape.part?.map types).getD [] := by
  cases shape <;> rfl

/-- A value of another type is the violation. -/
theorem violations_of_misfit (misfit : typeOf value ≠ shape.type) :
    shape.violations value = [⟨value, shape.type⟩] := by
  cases shape with
  | text =>
    cases value with
    | str text => exact absurd rfl misfit
    | _ => rfl
  | list item =>
    cases value with
    | arr items => exact absurd rfl misfit
    | _ => rfl
  | record member =>
    cases value with
    | obj members => exact absurd rfl misfit
    | _ => rfl

/-- In a value of the right type the violations are those of its parts, in order. -/
theorem violations_of_fit (fits : typeOf value = shape.type) (inside : shape.part? = some inner) :
    shape.violations value = value.parts.flatMap inner.violations := by
  cases shape with
  | text => cases inside
  | list item =>
    obtain ⟨items, rfl⟩ := typeOf_eq_array_iff.mp fits
    cases inside
    rfl
  | record member =>
    obtain ⟨members, rfl⟩ := typeOf_eq_object_iff.mp fits
    cases inside
    exact (List.flatMap_map ..).symm

/-- The places inside the parts of a value, from a position on. -/
structure PlacesFrom (inner : Shape) (start : Nat) (parts : List Json) (places : List (List Nat)) :
    Prop where
  inOrder : places.Pairwise (· < ·)
  exact : ∀ place, place ∈ places ↔ ∃ position part rest, parts[position]? = some part ∧
    place = (start + position) :: rest ∧ inner.Offends part rest
  told : List.Forall₂ (fun violation place => ∃ position part rest, parts[position]? = some part ∧
    place = (start + position) :: rest ∧ inner.Shows part violation rest)
    (parts.flatMap inner.violations) places

/-- **The offending places of parts in a row** are those of the first, behind its position, and then
those of the others. -/
theorem exists_placesFrom (each : ∀ part, ∃ places, inner.Places part places) (parts : List Json) :
    ∀ start, ∃ places, inner.PlacesFrom start parts places := by
  induction parts with
  | nil => exact fun start => ⟨[], .nil, by simp, .nil⟩
  | cons part others ih =>
    intro start
    obtain ⟨here, first⟩ := each part
    obtain ⟨behind, rest⟩ := ih (start + 1)
    -- A position among the others is one higher among all parts.
    have shift : ∀ position, start + 1 + position = start + (position + 1) := fun position => by omega
    refine ⟨here.map (start :: ·) ++ behind, List.pairwise_append.mpr ⟨?_, rest.inOrder, ?_⟩,
      fun place => ?_, ?_⟩
    · exact List.pairwise_map.mpr (first.inOrder.imp fun less => List.cons_lt_cons_self.mpr less)
    · intro place inFirst other inRest
      obtain ⟨inner, _, rfl⟩ := List.mem_map.mp inFirst
      obtain ⟨position, _, _, _, rfl, _⟩ := (rest.exact other).mp inRest
      exact List.cons_lt_cons_iff.mpr (.inl (by omega))
    · rw [List.mem_append, List.mem_map, rest.exact]
      constructor
      · rintro (⟨inside, member, rfl⟩ | ⟨position, other, inside, found, rfl, offends⟩)
        · exact ⟨0, part, inside, rfl, rfl, (first.exact inside).mp member⟩
        · exact ⟨position + 1, other, inside, found, by rw [shift], offends⟩
      · rintro ⟨position, other, inside, found, rfl, offends⟩
        cases position with
        | zero =>
          obtain rfl := Option.some.inj found
          exact .inl ⟨inside, (first.exact inside).mpr offends, rfl⟩
        | succ position => exact .inr ⟨position, other, inside, found, by rw [shift], offends⟩
    · rw [List.flatMap_cons]
      refine List.rel_append (List.forall₂_map_right_iff.mpr ?_) ?_
      · exact first.told.imp fun violation inside shows => ⟨0, part, inside, rfl, rfl, shows⟩
      · refine rest.told.imp fun violation place => ?_
        rintro ⟨position, other, inside, found, rfl, shows⟩
        exact ⟨position + 1, other, inside, found, by rw [shift], shows⟩

/-- A value of another type is the one offending place. -/
theorem places_of_misfit (misfit : typeOf value ≠ shape.type) : shape.Places value [[]] where
  inOrder := List.pairwise_singleton _ _
  exact place := by
    cases place with
    | nil => exact ⟨fun _ => misfit, fun _ => List.mem_singleton_self _⟩
    | cons position rest =>
      refine ⟨fun member => ?_, fun offends => absurd offends.1 misfit⟩
      cases List.mem_singleton.mp member
  told := by
    rw [violations_of_misfit misfit]
    exact .cons ⟨rfl, by rw [types_eq]; rfl⟩ .nil

/-- In a string nothing offends. -/
theorem places_of_string (fits : typeOf value = "string") : text.Places value [] where
  inOrder := .nil
  exact place := by
    refine ⟨nofun, fun offends => ?_⟩
    cases place with
    | nil => exact absurd fits offends
    | cons position rest =>
      obtain ⟨_, _, _, none, _⟩ := offends
      cases none
  told := by
    obtain ⟨text, rfl⟩ := typeOf_eq_string_iff.mp fits
    exact .nil

/-- In any other value of the right type the places are those inside its parts. -/
theorem places_of_fit (fits : typeOf value = shape.type) (inside : shape.part? = some inner)
    {places : List (List Nat)} (listed : inner.PlacesFrom 0 value.parts places) :
    shape.Places value places where
  inOrder := listed.inOrder
  exact place := by
    rw [listed.exact]
    constructor
    · rintro ⟨position, part, rest, found, rfl, offends⟩
      rw [Nat.zero_add]
      exact ⟨fits, inner, part, inside, found, offends⟩
    · intro offends
      cases place with
      | nil => exact absurd fits offends
      | cons position rest =>
        obtain ⟨_, other, part, same, found, offends⟩ := offends
        obtain rfl := Option.some.inj (inside.symm.trans same)
        exact ⟨position, part, rest, found, by rw [Nat.zero_add], offends⟩
  told := by
    rw [violations_of_fit fits inside]
    refine listed.told.imp fun violation place => ?_
    rintro ⟨position, part, rest, found, rfl, stands, due⟩
    rw [Nat.zero_add]
    refine ⟨?_, ?_⟩
    · rw [Json.at?, found]
      exact stands
    · rw [types_eq, inside]
      exact due

/-- **The violations found are the offending places in order.** -/
theorem exists_places (shape : Shape) : ∀ value, ∃ places, shape.Places value places := by
  induction shape with
  | text =>
    intro value
    by_cases fits : typeOf value = "string"
    · exact ⟨[], places_of_string fits⟩
    · exact ⟨[[]], places_of_misfit fits⟩
  | list item ih =>
    intro value
    by_cases fits : typeOf value = "array"
    · obtain ⟨places, listed⟩ := exists_placesFrom ih value.parts 0
      exact ⟨places, places_of_fit fits rfl listed⟩
    · exact ⟨[[]], places_of_misfit fits⟩
  | record member ih =>
    intro value
    by_cases fits : typeOf value = "object"
    · obtain ⟨places, listed⟩ := exists_placesFrom ih value.parts 0
      exact ⟨places, places_of_fit fits rfl listed⟩
    · exact ⟨[[]], places_of_misfit fits⟩

end Found

/-! ### Shape by shape -/

section Shapes

variable {inner : Shape} {value : Json} {position : Nat} {place : List Nat}

theorem offends_text_nil : text.Offends value [] ↔ ¬ ∃ text, value = .str text :=
  not_congr typeOf_eq_string_iff

theorem offends_list_nil : (list inner).Offends value [] ↔ ¬ ∃ items, value = .arr items :=
  not_congr typeOf_eq_array_iff

theorem offends_record_nil : (record inner).Offends value [] ↔ ¬ ∃ members, value = .obj members :=
  not_congr typeOf_eq_object_iff

/-- A string has no parts. -/
theorem offends_text_cons : text.Offends value (position :: place) ↔ False := by
  refine ⟨?_, False.elim⟩
  rintro ⟨_, _, _, none, _⟩
  cases none

theorem offends_list_cons : (list inner).Offends value (position :: place) ↔
    ∃ items item, value = .arr items ∧ items[position]? = some item ∧ inner.Offends item place := by
  constructor
  · rintro ⟨array, _, item, ⟨rfl⟩, found, offends⟩
    obtain ⟨items, rfl⟩ := typeOf_eq_array_iff.mp array
    exact ⟨items, item, rfl, found, offends⟩
  · rintro ⟨items, item, rfl, found, offends⟩
    exact ⟨rfl, inner, item, rfl, found, offends⟩

theorem offends_record_cons : (record inner).Offends value (position :: place) ↔
    ∃ members member, value = .obj members ∧ members[position]? = some member ∧
      inner.Offends member.2 place := by
  constructor
  · rintro ⟨object, _, part, ⟨rfl⟩, found, offends⟩
    obtain ⟨members, rfl⟩ := typeOf_eq_object_iff.mp object
    rw [Json.parts, List.getElem?_map, Option.map_eq_some_iff] at found
    obtain ⟨member, listed, rfl⟩ := found
    exact ⟨members, member, rfl, listed, offends⟩
  · rintro ⟨members, member, rfl, listed, offends⟩
    refine ⟨rfl, inner, member.2, rfl, ?_, offends⟩
    rw [Json.parts, List.getElem?_map, listed]
    rfl

theorem violations_text_eq_nil_iff : text.violations value = [] ↔ ∃ text, value = .str text := by
  cases value <;> simp [violations]

theorem violations_list_eq_nil_iff : (list inner).violations value = [] ↔
    ∃ items, value = .arr items ∧ ∀ item ∈ items, inner.violations item = [] := by
  cases value <;> simp [violations]

theorem violations_record_eq_nil_iff : (record inner).violations value = [] ↔
    ∃ members, value = .obj members ∧ ∀ member ∈ members, inner.violations member.2 = [] := by
  cases value <;> simp [violations]

end Shapes

end Shape

/-! ### The two kinds of document -/

section Documents

variable {document : Json}

/-- A mapping document: an object whose members are arrays of strings. -/
def Mapping.IsDocument (document : Json) : Prop :=
  ∃ members, document = .obj members ∧
    ∀ member ∈ members, ∃ items, member.2 = .arr items ∧ ∀ item ∈ items, ∃ text, item = .str text

/-- The places that offend in a mapping document: the document itself if it is no object, a member that
is no array, an item of a member that is no string. -/
def Mapping.OffendsAt (document : Json) : List Nat → Prop
  | [] => ¬ ∃ members, document = .obj members
  | [position] => ∃ members member, document = .obj members ∧ members[position]? = some member ∧
      ¬ ∃ items, member.2 = .arr items
  | [position, within] => ∃ members member, document = .obj members ∧
      members[position]? = some member ∧ ∃ items item, member.2 = .arr items ∧
        items[within]? = some item ∧ ¬ ∃ text, item = .str text
  | _ => False

/-- A hierarchy document: an object whose members are strings. -/
def Hierarchy.IsDocument (document : Json) : Prop :=
  ∃ members, document = .obj members ∧ ∀ member ∈ members, ∃ text, member.2 = .str text

/-- The places that offend in a hierarchy document: the document itself if it is no object, a member
that is no string. -/
def Hierarchy.OffendsAt (document : Json) : List Nat → Prop
  | [] => ¬ ∃ members, document = .obj members
  | [position] => ∃ members member, document = .obj members ∧ members[position]? = some member ∧
      ¬ ∃ text, member.2 = .str text
  | _ => False

theorem Mapping.offends_iff (place : List Nat) :
    Shape.mapping.Offends document place ↔ OffendsAt document place := by
  unfold Shape.mapping
  rcases place with _ | ⟨position, _ | ⟨within, _ | ⟨deeper, rest⟩⟩⟩
  · exact Shape.offends_record_nil
  · simp only [Shape.offends_record_cons, Shape.offends_list_nil, OffendsAt]
  · simp only [Shape.offends_record_cons, Shape.offends_list_cons, Shape.offends_text_nil, OffendsAt]
  · simp only [Shape.offends_record_cons, Shape.offends_list_cons, Shape.offends_text_cons, OffendsAt,
      and_false, exists_false]

theorem Hierarchy.offends_iff (place : List Nat) :
    Shape.hierarchy.Offends document place ↔ OffendsAt document place := by
  unfold Shape.hierarchy
  rcases place with _ | ⟨position, _ | ⟨deeper, rest⟩⟩
  · exact Shape.offends_record_nil
  · simp only [Shape.offends_record_cons, Shape.offends_text_nil, OffendsAt]
  · simp only [Shape.offends_record_cons, Shape.offends_text_cons, OffendsAt, and_false, exists_false]

theorem Mapping.violations_eq_nil_iff :
    Shape.mapping.violations document = [] ↔ IsDocument document := by
  simp only [Shape.mapping, Shape.violations_record_eq_nil_iff, Shape.violations_list_eq_nil_iff,
    Shape.violations_text_eq_nil_iff, IsDocument]

theorem Hierarchy.violations_eq_nil_iff :
    Shape.hierarchy.violations document = [] ↔ IsDocument document := by
  simp only [Shape.hierarchy, Shape.violations_record_eq_nil_iff, Shape.violations_text_eq_nil_iff,
    IsDocument]

end Documents

/-! ### Lines -/

section Lines

theorem Shape.not_mem_types (shape : Shape) : ∀ wanted ∈ shape.types, '\n' ∉ wanted.toList := by
  induction shape with
  | text => decide
  | list item ih => exact List.forall_mem_cons.mpr ⟨by decide, ih⟩
  | record member ih => exact List.forall_mem_cons.mpr ⟨by decide, ih⟩

theorem Violation.not_mem_message {violation : Violation} (wanted : '\n' ∉ violation.wanted.toList) :
    '\n' ∉ violation.message.toList := by
  simp only [Violation.message, String.toList_append, List.mem_append, not_or]
  exact ⟨⟨⟨Json.newline_not_mem_compact _, by decide⟩, wanted⟩, by decide⟩

/-- A line tells of a place: the value that stands there, written out, and the type due there. -/
def Tells (document : Json) (types : List String) (line : String) (place : List Nat) : Prop :=
  ∃ value wanted, document.at? place = some value ∧ types[place.length]? = some wanted ∧
    line = value.compact ++ " is not of type \"" ++ wanted ++ "\""

/-- **A document is refused line by line**: the error is one of the shape, for the origin, and behind
its first line there is one line for each offending place, in document order. -/
def RefusedByLine (shape : Shape) (origin : String) (document : Json) (OffendsAt : List Nat → Prop)
    (types : List String) : Prop :=
  ∃ violations details places,
    checkShape shape origin document = .error (.misshapen origin violations) ∧
    (ConfigurationError.misshapen origin violations).message =
      origin ++ " failed schema validation:\n" ++ details ∧
    places.Pairwise (· < ·) ∧ (∀ place, place ∈ places ↔ OffendsAt place) ∧
    List.Forall₂ (Tells document types) (Text.lines details) places

/-- **What violates a shape is refused line by line.** -/
theorem refusedByLine_of_violations {shape : Shape} {document : Json} {OffendsAt : List Nat → Prop}
    (origin : String) (some : shape.violations document ≠ [])
    (offends : ∀ place, shape.Offends document place ↔ OffendsAt place) :
    RefusedByLine shape origin document OffendsAt shape.types := by
  obtain ⟨places, inOrder, exact, told⟩ := shape.exists_places document
  have refused : checkShape shape origin document =
      .error (.misshapen origin (shape.violations document)) := by
    unfold checkShape
    cases found : shape.violations document with
    | nil => exact absurd found some
    | cons violation more => rfl
  have oneLine : ∀ message ∈ (shape.violations document).map Violation.message,
      '\n' ∉ message.toList := by
    intro message listed
    obtain ⟨violation, member, rfl⟩ := List.mem_map.mp listed
    obtain ⟨place, _, _, due⟩ := exists_right_of_mem told member
    exact Violation.not_mem_message (shape.not_mem_types _ (List.mem_of_getElem? due))
  refine ⟨_, _, places, refused, rfl, inOrder, fun place => (exact place).trans (offends place), ?_⟩
  rw [Text.lines_intercalate (by simpa using some) oneLine, List.forall₂_map_left_iff]
  exact told.imp fun violation place shows => ⟨violation.value, violation.wanted, shows.1, shows.2, rfl⟩

end Lines

/-- **Every violation is told once, on a line of its own.**

* A mapping document passes exactly when it is an object whose members are arrays of strings.  Any other
  is refused line by line: one line for the document if it is no object, else one for each member that
  is no array and one for each item of a member that is no string.
* A hierarchy document passes exactly when it is an object whose members are strings.  Any other is
  refused line by line: one line for the document, or one for each member that is no string. -/
theorem violations_told (origin : String) (document : Json) :
    ((checkShape .mapping origin document = .ok () ↔ Mapping.IsDocument document) ∧
      (¬ Mapping.IsDocument document → RefusedByLine .mapping origin document
        (Mapping.OffendsAt document) ["object", "array", "string"])) ∧
    (checkShape .hierarchy origin document = .ok () ↔ Hierarchy.IsDocument document) ∧
      (¬ Hierarchy.IsDocument document → RefusedByLine .hierarchy origin document
        (Hierarchy.OffendsAt document) ["object", "string"]) := by
  rw [checkShape_eq_ok_iff, checkShape_eq_ok_iff, ← Mapping.violations_eq_nil_iff,
    ← Hierarchy.violations_eq_nil_iff]
  exact ⟨⟨Iff.rfl, fun some => refusedByLine_of_violations origin some Mapping.offends_iff⟩, Iff.rfl,
    fun some => refusedByLine_of_violations origin some Hierarchy.offends_iff⟩

/-- A member that is no array, whose text has a line break, and two items that are no strings, with the
same value. -/
def brokenDocument : Json :=
  .obj [("A", .str "x\ny"), ("B", .arr [.str "T", .nat 42, .nat 42])]

/-- As a mapping the document is refused for three places, two of which have the same value; as a
hierarchy it is refused for its second member alone. -/
theorem brokenDocument_told :
    RefusedByLine .mapping "inline" brokenDocument (Mapping.OffendsAt brokenDocument)
        ["object", "array", "string"] ∧
      Mapping.OffendsAt brokenDocument [0] ∧ Mapping.OffendsAt brokenDocument [1, 1] ∧
      Mapping.OffendsAt brokenDocument [1, 2] ∧
      RefusedByLine .hierarchy "inline" brokenDocument (Hierarchy.OffendsAt brokenDocument)
        ["object", "string"] ∧
      Hierarchy.OffendsAt brokenDocument [1] := by
  have notMapping : ¬ Mapping.IsDocument brokenDocument := by
    rintro ⟨_, ⟨rfl⟩, each⟩
    obtain ⟨_, array, _⟩ := each _ List.mem_cons_self
    cases array
  have notHierarchy : ¬ Hierarchy.IsDocument brokenDocument := by
    rintro ⟨_, ⟨rfl⟩, each⟩
    obtain ⟨_, string⟩ := each _ (List.mem_cons_of_mem _ List.mem_cons_self)
    cases string
  have told := violations_told "inline" brokenDocument
  exact ⟨told.1.2 notMapping, ⟨_, _, rfl, rfl, nofun⟩,
    ⟨_, _, rfl, rfl, _, _, rfl, rfl, nofun⟩, ⟨_, _, rfl, rfl, _, _, rfl, rfl, nofun⟩,
    told.2.2 notHierarchy, ⟨_, _, rfl, rfl, nofun⟩⟩

end Mixin
