/-
**Declarations survive writing and reading.**

The compact text of a declaration is one line, and both ways of reading it, directly and through a
JSON value, give the declaration back.

* `ofJson_toJson` — the value of a declaration converts back to it.
* `takes_read` — the tokens of a declaration, however spaced, are read as the declaration.
* **`compact_roundTrip`** — the two together, for the compact text.
-/

import Mixin.Declaration.OfText
import Mixin.Declaration.Printer
import Mixin.Proofs.Json.Reading
import Mixin.Proofs.Json.SingleLine

namespace Mixin

open Json (Spaced Takes Opens Plain tokens)

/-! ### From values -/

section Values

theorem TypeName.ofJson_toJson (name : TypeName) : TypeName.ofJson name.toJson = .ok name := by
  show TypeName.ofSpelling name.text = .ok name
  unfold TypeName.ofSpelling
  rw [TypeName.parse_text]

theorem TypeName.ofJson?_nameToJson (name : Option TypeName) :
    TypeName.ofJson? (Declaration.nameToJson name) = .ok name := by
  cases name with
  | none => rfl
  | some name =>
    show (TypeName.ofJson name.toJson >>= _) = _
    rw [TypeName.ofJson_toJson]
    rfl

theorem TypeName.listOfJson_toJson (names : List TypeName) :
    TypeName.listOfJson (names.map TypeName.toJson) = .ok names := by
  induction names with
  | nil => rfl
  | cons name rest ih =>
    rw [List.map_cons, TypeName.listOfJson, TypeName.ofJson_toJson, ih]
    rfl

/-- The content of a written statement, under its field, is read by its kind. -/
theorem Statement.ofSplit_use (markers : List TypeName) :
    Statement.ofSplit (some .use, [("markers", .arr (markers.map TypeName.toJson))]) =
      .ok (.use markers) := by
  show ((TypeName.listOfJson (markers.map TypeName.toJson) >>= _) >>= _) = _
  rw [TypeName.listOfJson_toJson]
  rfl

theorem Statement.ofSplit_member (text : String) :
    Statement.ofSplit (some .member, [("text", .str text)]) = .ok (.member text) := rfl

theorem Statement.ofJson_toJson (statement : Statement) :
    Statement.ofJson statement.toJson = .ok statement := by
  cases statement with
  | use markers => exact Statement.ofSplit_use markers
  | member text => exact Statement.ofSplit_member text

theorem Statement.listOfJson_toJson (body : List Statement) :
    Statement.listOfJson (body.map Statement.toJson) = .ok body := by
  induction body with
  | nil => rfl
  | cons statement rest ih =>
    rw [List.map_cons, Statement.listOfJson, Statement.ofJson_toJson, ih]
    rfl

/-- A field given once is read and kept. -/
theorem Fields.ofMembers_put {fields next : Fields} {key : String} {field : Field} {value : Json}
    {rest : List (String × Json)} (known : Field.ofKey? key = some field)
    (new : fields.has field = false) (put : fields.put value field = .ok next) :
    Fields.ofMembers fields ((key, value) :: rest) = Fields.ofMembers next rest := by
  rw [Fields.ofMembers, known]
  show (if fields.has field = true then _ else fields.put value field >>= _) = _
  rw [new, if_neg Bool.false_ne_true, put]
  rfl

/-- **The value of a declaration converts back to the declaration.** -/
theorem Declaration.ofJson_toJson (d : Declaration) : Declaration.ofJson d.toJson = .ok d := by
  have name : Fields.put {} (nameToJson d.name) .name = .ok { name := some d.name } := by
    rw [Fields.put, TypeName.ofJson?_nameToJson]
    rfl
  have parent : Fields.put { name := some d.name } (nameToJson d.parent) .parent =
      .ok { name := some d.name, parent := some d.parent } := by
    rw [Fields.put, TypeName.ofJson?_nameToJson]
    rfl
  have body : Fields.put { name := some d.name, parent := some d.parent }
      (.arr (d.body.map Statement.toJson)) .body =
        .ok { name := some d.name, parent := some d.parent, body := some d.body } := by
    rw [Fields.put, Statement.bodyOfJson, Statement.listOfJson_toJson]
    rfl
  rw [toJson, ofJson, Fields.ofMembers_put rfl rfl name, Fields.ofMembers_put rfl rfl parent,
    Fields.ofMembers_put rfl rfl body]
  rfl

end Values

/-! ### From text -/

section Texts

theorem TypeName.takes_read? (name : Option TypeName) :
    Takes TypeName.read? name (tokens (Declaration.nameToJson name)) := by
  cases name with
  | none =>
    refine Json.begins_null.takes_all fun text rest opened => ?_
    unfold TypeName.read?
    rw [opened]
    rfl
  | some name =>
    refine (Json.begins_str name.text).takes_all fun text rest opened => ?_
    unfold TypeName.read?
    rw [opened]
    show ((Fault.ofRejection (TypeName.ofJson name.toJson) >>= _) >>= _) = _
    rw [TypeName.ofJson_toJson]
    rfl

theorem Kind.takes_read (kind : Kind) : Takes Kind.read kind [Json.writeString kind.word] := by
  refine (Json.begins_str kind.word).takes_all fun text rest opened => ?_
  unfold Kind.read
  rw [opened]
  cases kind <;> rfl

/-- A statement is taken from its kind and its content, in this order. -/
theorem Statement.takes_read_content {depth : Nat} (kind : Kind) {content : Json}
    {statement : Statement} (plain : Plain depth content)
    (meant : Statement.ofSplit (some kind, [(kind.field, content)]) = .ok statement) :
    Takes (Statement.read depth) statement
      (tokens (.obj [("kind", .str kind.word), (kind.field, content)])) := by
  have noKind : kind.field ≠ Statement.kindKey := by cases kind <;> decide
  have contentReader : Statement.readMember depth (some kind, []) kind.field =
      .ok fun text => Json.readValue depth text >>= fun found =>
        .ok ((some kind, [(kind.field, found.1)]), found.2) := by
    unfold Statement.readMember
    rw [if_neg noKind]
    rfl
  have gathers : Json.Gathers (Statement.readMember depth) (none, [])
      [("kind", [Json.writeString kind.word]), (kind.field, tokens content)]
      (some kind, [(kind.field, content)]) :=
    .member rfl ((Kind.takes_read kind).map fun kind => (some kind, []))
      (.member contentReader ((Json.takes_readValue depth content plain).map fun value =>
        (some kind, [(kind.field, value)])) .done)
  have accepted : Fault.ofRejection (Statement.ofSplit (some kind, [(kind.field, content)])) =
      .ok statement := by
    rw [meant]
    rfl
  rw [Json.tokens_obj]
  refine Json.begins_object.takes (fun text rest opened => ?_)
    ((Json.takes_readMembers gathers).check (fun split => Fault.ofRejection (ofSplit split)) accepted)
  unfold Statement.read
  rw [opened]
  rfl

theorem plain_markers (depth : Nat) (markers : List TypeName) :
    Plain (depth + 1) (.arr (markers.map TypeName.toJson)) := by
  intro item listed
  obtain ⟨name, _, rfl⟩ := List.mem_map.mp listed
  cases depth <;> trivial

theorem Statement.takes_read (depth : Nat) (statement : Statement) :
    Takes (Statement.read (depth + 1)) statement (tokens statement.toJson) := by
  cases statement with
  | use markers =>
    exact Statement.takes_read_content .use (plain_markers depth markers)
      (Statement.ofSplit_use markers)
  | member text =>
    exact Statement.takes_read_content .member trivial (Statement.ofSplit_member text)

theorem plain_statement (depth : Nat) (statement : Statement) :
    Plain (depth + 2) statement.toJson := by
  cases statement with
  | use markers =>
    intro member listed
    rcases List.mem_cons.mp listed with rfl | second
    · trivial
    · obtain rfl := List.mem_singleton.mp second
      exact plain_markers depth markers
  | member text =>
    intro member listed
    rcases List.mem_cons.mp listed with rfl | second
    · trivial
    · obtain rfl := List.mem_singleton.mp second
      trivial

theorem Statement.takes_readBody (depth : Nat) (body : List Statement) :
    Takes (Statement.readBody (depth + 1)) body (tokens (.arr (body.map Statement.toJson))) := by
  have each : ∀ statement ∈ body, Opens (tokens statement.toJson) ∧
      Takes (Statement.read (depth + 1)) statement (tokens statement.toJson) :=
    fun statement _ =>
      ⟨Json.opens_tokens (plain_statement depth statement), Statement.takes_read depth statement⟩
  rw [Json.tokens_arr, List.map_map]
  refine Json.begins_list.takes (fun text rest opened => ?_) (Json.takes_readItems body each)
  unfold Statement.readBody
  rw [opened]
  rfl

theorem Fields.takes_read_name (depth : Nat) (fields : Fields) (name : Option TypeName) :
    Takes (Fields.read depth fields .name) { fields with name := some name }
      (tokens (Declaration.nameToJson name)) :=
  (TypeName.takes_read? name).map fun name => ({ fields with name := some name } : Fields)

theorem Fields.takes_read_parent (depth : Nat) (fields : Fields) (parent : Option TypeName) :
    Takes (Fields.read depth fields .parent) { fields with parent := some parent }
      (tokens (Declaration.nameToJson parent)) :=
  (TypeName.takes_read? parent).map fun parent => ({ fields with parent := some parent } : Fields)

theorem Fields.takes_read_body (depth : Nat) (fields : Fields) (body : List Statement) :
    Takes (Fields.read (depth + 1) fields .body) { fields with body := some body }
      (tokens (.arr (body.map Statement.toJson))) :=
  (Statement.takes_readBody depth body).map fun body => ({ fields with body := some body } : Fields)

/-- **A declaration is taken from its tokens.**  Its statements need one bracket more inside them, for
the markers they list. -/
theorem Declaration.takes_read (depth : Nat) (d : Declaration) :
    Takes (Declaration.read (depth + 1)) d (tokens d.toJson) := by
  have gathers : Json.Gathers (Fields.readMember (depth + 1)) {}
      [("name", tokens (nameToJson d.name)), ("extends", tokens (nameToJson d.parent)),
        ("stmts", tokens (.arr (d.body.map Statement.toJson)))]
      { name := some d.name, parent := some d.parent, body := some d.body } :=
    .member rfl (Fields.takes_read_name _ _ d.name)
      (.member rfl (Fields.takes_read_parent _ _ d.parent)
        (.member rfl (Fields.takes_read_body depth _ d.body) .done))
  rw [toJson, Json.tokens_obj]
  refine Json.begins_object.takes (fun text rest opened => ?_)
    ((Json.takes_readMembers gathers).map Fields.toDeclaration)
  unfold read
  rw [opened]
  rfl

theorem plain_declaration (depth : Nat) (d : Declaration) : Plain (depth + 4) d.toJson := by
  have name : ∀ name, Plain (depth + 3) (Declaration.nameToJson name) := by
    intro name
    cases name <;> trivial
  intro member listed
  rcases List.mem_cons.mp listed with rfl | later
  · exact name d.name
  rcases List.mem_cons.mp later with rfl | last
  · exact name d.parent
  obtain rfl := List.mem_singleton.mp last
  intro item inBody
  obtain ⟨statement, _, rfl⟩ := List.mem_map.mp inBody
  exact plain_statement depth statement

end Texts

/-! ### The compact text -/

section Compact

/-- The value of a declaration repeats no key. -/
theorem Declaration.collapse_toJson (d : Declaration) : d.toJson.collapse = d.toJson := by
  have scalar : ∀ name, (nameToJson name).collapse = nameToJson name := by
    intro name
    cases name with
    | none => exact Json.collapse_null
    | some name => exact Json.collapse_str name.text
  have statement : ∀ statement : Statement, statement.toJson.collapse = statement.toJson := by
    intro statement
    cases statement with
    | use markers =>
      have names : (markers.map TypeName.toJson).map Json.collapse = markers.map TypeName.toJson := by
        rw [List.map_map]
        exact List.map_congr_left fun name _ => Json.collapse_str name.text
      rw [Statement.toJson, Json.collapse_obj_of_nodup (by simp)]
      simp only [List.map_cons, List.map_nil, Json.collapse_str, Json.collapse_arr, names]
    | member text =>
      rw [Statement.toJson, Json.collapse_obj_of_nodup (by simp)]
      simp only [List.map_cons, List.map_nil, Json.collapse_str]
  have statements : (d.body.map Statement.toJson).map Json.collapse = d.body.map Statement.toJson := by
    rw [List.map_map]
    exact List.map_congr_left fun one _ => statement one
  rw [toJson, Json.collapse_obj_of_nodup (by simp)]
  simp only [List.map_cons, List.map_nil, scalar, Json.collapse_arr, statements]

/-- The compact text is the tokens without blanks. -/
theorem spaced_compact (value : Json) : Spaced (tokens value) value.compact.toList := by
  unfold Json.compact
  rw [String.toList_ofList, ← Json.flatten_tokens]
  exact Spaced.flatten _

/-- **Declarations survive writing and reading.**  The compact text of a declaration has no character
below the space; read as a declaration it gives the declaration back; and it reads as a value that
converts to the declaration. -/
theorem Declaration.compact_roundTrip (d : Declaration) :
    (∀ c ∈ d.toJson.compact.toList, 0x20 ≤ c.toNat) ∧
      Declaration.ofText d.toJson.compact = .ok d ∧
      ∃ value, Json.parse d.toJson.compact = .ok value ∧ Declaration.ofJson value = .ok d := by
  refine ⟨?_, ?_, d.toJson, ?_, ofJson_toJson d⟩
  · unfold Json.compact
    rw [String.toList_ofList]
    exact Json.oneLine_write d.toJson
  · exact Json.readWhole_of_takes (takes_read (statementDepth - 1) d) (spaced_compact d.toJson)
  · rw [Json.parse_of_spaced (plain_declaration (Json.maxDepth - 4) d) (spaced_compact d.toJson),
      collapse_toJson]

end Compact

end Mixin
