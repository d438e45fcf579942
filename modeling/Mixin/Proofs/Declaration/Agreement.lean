/-
**A declaration is the same from its text and from its value.**

A declaration can be read straight from a text, which skims what it does not need and looks at each
part on sight, or from the value that the text was read as.  Where the text can be read as a value and
no object repeats a key, both ways succeed or both fail, and they give the same declaration.

The readers of the parts are compared with the conversions of the parts in the order of their
definitions.  Each comparison is made where a value could be read, so that a fault of the grammar never
comes into it, and what a reader leaves is what the value left.

* `Agree rest read made`, `Agrees depth read convert` — a reading and a conversion end alike.
* `agrees_of_opening` — a reader that looks at the beginning first.
* `agree_readMembersFrom` — the members of an object, one after the other.
* **`Declaration.agrees_read`** — declarations.
* **`Declaration.text_and_value_agree`** — whole texts.
-/

import Mixin.Declaration.OfText
import Mixin.Proofs.Json.Naturality
import Mixin.Proofs.Json.SkimReading

namespace Mixin

open Json (Opening Completes readValue readOpening readItemsFrom readMembersFrom readInto nextItem
  readItemsFrom_eq_ok readMembersFrom_eq_ok)

variable {α β σ : Type}

/-! ### Ending alike -/

section Agreement

/-- A reading that leaves `rest` and a conversion end alike: with the same value, or both refused. -/
inductive Agree (rest : List Char) :
    Except (Fault Rejection) (α × List Char) → Except Rejection α → Prop
  | ok (value : α) : Agree rest (.ok (value, rest)) (.ok value)
  | error (fault : Fault Rejection) (why : Rejection) : Agree rest (.error fault) (.error why)

/-- One step after the other ends alike if the first steps do, and those that follow. -/
theorem Agree.bind {middle rest : List Char} {read : Except (Fault Rejection) (α × List Char)}
    {made : Except Rejection α} {next : α × List Char → Except (Fault Rejection) (β × List Char)}
    {after : α → Except Rejection β} (first : Agree middle read made)
    (following : ∀ value, Agree rest (next (value, middle)) (after value)) :
    Agree rest (read >>= next) (made >>= after) := by
  cases first with
  | ok value => exact following value
  | error fault why => exact .error fault why

/-- What is only converted ends like the conversion. -/
theorem Agree.ofRejection (rest : List Char) (made : Except Rejection α) :
    Agree rest (Fault.ofRejection made >>= fun value => .ok (value, rest)) made := by
  cases made with
  | ok value => exact .ok value
  | error why => exact .error (.rejected why) why

theorem Agree.eq_ok_iff {rest : List Char} {read : Except (Fault Rejection) (α × List Char)}
    {made : Except Rejection α} (agree : Agree rest read made) (value : α) :
    read = .ok (value, rest) ↔ made = .ok value := by
  cases agree <;> simp

/-- What is left is what was to be left. -/
theorem Agree.rest_eq {rest other : List Char} {value : α} {made : Except Rejection α}
    (agree : Agree rest (.ok (value, other)) made) : other = rest := by
  cases agree
  rfl

/-- Wherever a value can be read, the reader ends like the conversion of the value and leaves what the
value leaves. -/
def Agrees (depth : Nat) (read : Reader Rejection α) (convert : Json → Except Rejection α) : Prop :=
  ∀ ⦃text : List Char⦄ ⦃value : Json⦄ ⦃rest : List Char⦄,
    readValue depth text = (.ok (value, rest) : Except (Fault Rejection) _) →
      Agree rest (read text) (convert value)

end Agreement

/-! ### Openings -/

section Openings

/-- **A reader that looks at the beginning first** agrees with a conversion if what it goes on with
does, however the value goes on. -/
theorem agrees_of_opening {depth : Nat} {next : Opening → Except (Fault Rejection) (α × List Char)}
    {convert : Json → Except Rejection α}
    (goes : ∀ opening value rest, Completes Rejection depth opening value rest →
      Agree rest (next opening) (convert value)) :
    Agrees depth (fun text => readOpening text >>= next) convert := by
  intro text value rest done
  obtain ⟨opening, opened, completes⟩ := Json.completes_of_readValue done
  dsimp only
  rw [opened]
  exact goes opening value rest completes

end Openings

/-! ### Names and kinds -/

section Words

/-- A string where one is due, and a refusal of anything else. -/
theorem TypeName.agrees_read? (depth : Nat) : Agrees depth TypeName.read? TypeName.ofJson? := by
  refine agrees_of_opening fun opening value rest completes => ?_
  cases completes with
  | scalar scalar =>
    cases value with
    | null => exact .ok none
    | str spelling =>
      exact (Agree.ofRejection rest (TypeName.ofSpelling spelling)).bind fun name => .ok (some name)
    | bool _ | num _ => exact .error _ _
    | arr _ | obj _ => exact scalar.elim
  | list _ | object _ => exact .error _ _

theorem Kind.agrees_read (depth : Nat) : Agrees depth Kind.read Kind.ofJson := by
  refine agrees_of_opening fun opening value rest completes => ?_
  cases completes with
  | scalar scalar =>
    cases value with
    | str word => exact Agree.ofRejection rest (Kind.ofWord word)
    | null | bool _ | num _ => exact .error _ _
    | arr _ | obj _ => exact scalar.elim
  | list _ | object _ => exact .error _ _

end Words

/-! ### Members -/

section Members

variable {depth : Nat} {field : σ → String → Except (Fault Rejection) (Reader Rejection σ)}
  {take : σ → String × Json → Except Rejection σ}

/-- **The members of an object**, read one after the other, end like the same members taken one after
the other, if each does. -/
theorem agree_readMembersFrom
    (each : ∀ state key, Agrees depth (fun text => field state key >>= fun read => read text)
      fun value => take state (key, value)) (steps : Nat) :
    ∀ {first : Bool} {before members : List (String × Json)} {text rest : List Char},
      readMembersFrom (readInto (readValue depth : Reader Rejection Json)) steps first before text =
        .ok (members, rest) →
      ∃ added, members = before ++ added ∧
        ∀ state, Agree rest (readMembersFrom field steps first state text) (added.foldlM take state) := by
  induction steps with
  | zero =>
    intro first before members text rest done
    cases done
  | succ steps ih =>
    intro first before members text rest done
    rcases readMembersFrom_eq_ok done with
      ⟨found, rfl⟩ | ⟨behind, key, afterKey, reader, afterColon, _, afterValue, found, keyed, chosen,
        colon, reading, more⟩
    · refine ⟨[], (List.append_nil _).symm, fun state => ?_⟩
      rw [readMembersFrom, found]
      exact .ok state
    · cases chosen
      obtain ⟨⟨value, _⟩, one, same⟩ := bind_eq_ok reading
      cases same
      obtain ⟨added, rfl, agree⟩ := ih more
      refine ⟨(key, value) :: added, by simp, fun state => ?_⟩
      have here : Agree afterValue (field state key >>= fun read => read afterColon)
          (take state (key, value)) := each state key one
      rw [readMembersFrom, found, List.foldlM_cons]
      show Agree rest (Json.readString behind >>= _) _
      rw [keyed]
      show Agree rest (field state key >>= _) _
      cases chosen : field state key with
      | error fault =>
        rw [chosen] at here
        generalize take state (key, value) = made at here ⊢
        cases here
        exact .error _ _
      | ok read =>
        rw [chosen] at here
        show Agree rest (Json.readColon afterKey >>= _) _
        rw [colon]
        exact here.bind agree

end Members

/-! ### Statements -/

section Statements

variable {depth : Nat}

/-- What one member adds to a statement: its kind, or something to look at later. -/
def Statement.take (split : Option Kind × List (String × Json)) (member : String × Json) :
    Except Rejection (Option Kind × List (String × Json)) :=
  if member.1 = kindKey then
    match split.1 with
    | some _ => .error (.duplicateField kindKey)
    | none => do
      let kind ← Kind.ofJson member.2
      .ok (some kind, split.2)
  else .ok (split.1, split.2 ++ [member])

/-- Taking the members one by one takes the kind out of them. -/
theorem Statement.foldlM_take (members : List (String × Json)) :
    ∀ found before, members.foldlM Statement.take (found, before) =
      splitKind found members >>= fun split => .ok (split.1, before ++ split.2) := by
  induction members with
  | nil =>
    intro found before
    show Except.ok (found, before) = .ok (found, before ++ [])
    rw [List.append_nil]
  | cons member members ih =>
    obtain ⟨key, value⟩ := member
    intro found before
    rw [List.foldlM_cons, take, splitKind.eq_def]
    dsimp only
    by_cases kind : key = kindKey
    · rw [if_pos kind, if_pos kind]
      cases found with
      | some _ => rfl
      | none =>
        show ((Kind.ofJson value >>= _) >>= _) = _
        cases Kind.ofJson value with
        | error why => rfl
        | ok known => exact ih (some known) before
    · rw [if_neg kind, if_neg kind]
      show members.foldlM take (found, before ++ [(key, value)]) = _
      rw [ih]
      cases splitKind found members with
      | error why => rfl
      | ok split =>
        show Except.ok (split.1, before ++ [(key, value)] ++ split.2) = .ok (split.1, _)
        rw [List.append_assoc]
        rfl

theorem Statement.foldlM_take_start (members : List (String × Json)) :
    members.foldlM Statement.take (none, []) = splitKind none members := by
  rw [foldlM_take]
  cases splitKind none members <;> rfl

theorem Statement.agrees_readMember (split : Option Kind × List (String × Json)) (key : String) :
    Agrees depth (fun text => readMember depth split key >>= fun read => read text)
      fun value => take split (key, value) := by
  intro text value rest done
  unfold readMember take
  dsimp only
  by_cases kind : key = kindKey
  · rw [if_pos kind, if_pos kind]
    cases split.1 with
    | some _ => exact .error _ _
    | none => exact (Kind.agrees_read depth done).bind fun known => .ok (some known, split.2)
  · rw [if_neg kind, if_neg kind]
    show Agree rest (readValue depth text >>= _) _
    rw [done]
    exact .ok _

/-- The list form, of which the kind is looked at on sight. -/
theorem Statement.agree_readList {behind rest : List Char} {items : List Json}
    (done : Json.readItems (readValue depth : Reader Rejection Json) behind = .ok (items, rest)) :
    Agree rest (readList depth behind) (ofJson (.arr items)) := by
  unfold readList
  rcases readItemsFrom_eq_ok done with
    ⟨found, rfl⟩ | ⟨inside, word, middle, others, found, one, more, rfl⟩
  · rw [found]
    exact .error _ _
  · rw [found]
    -- What follows the kind is read with its steps counted anew.
    have again : Json.readMoreItems (readValue depth : Reader Rejection Json) middle =
        .ok (others, rest) := by
      obtain ⟨peeking, advances⟩ := Json.local_readValue (ρ := Rejection) depth
      obtain ⟨taken, _, rfl, always⟩ := Json.readItemsFrom_again peeking advances _ more
      exact always _ rest (by rw [List.length_append]; omega)
    refine (Kind.agrees_read depth one).bind fun kind => ?_
    show Agree rest (Json.readMoreItems (readValue depth) middle >>= _) _
    rw [again]
    exact Agree.ofRejection rest (ofItems kind others)

/-- **Statements.** -/
theorem Statement.agrees_read (depth : Nat) :
    Agrees (depth + 1) (Statement.read depth) Statement.ofJson := by
  refine agrees_of_opening fun opening value rest completes => ?_
  cases completes with
  | scalar scalar =>
    cases value with
    | arr _ | obj _ => exact scalar.elim
    | null | bool _ | num _ | str _ => exact .error _ _
  | list items => exact Statement.agree_readList items
  | object members =>
    obtain ⟨added, rfl, agree⟩ := agree_readMembersFrom Statement.agrees_readMember _ members
    have split := agree (none, [])
    rw [Statement.foldlM_take_start] at split
    exact split.bind fun found => Agree.ofRejection rest (Statement.ofSplit found)

theorem Statement.agree_readItemsFrom (steps : Nat) :
    ∀ {first : Bool} {text rest : List Char} {items : List Json},
      readItemsFrom (readValue (depth + 1) : Reader Rejection Json) steps first text =
        .ok (items, rest) →
      Agree rest (readItemsFrom (Statement.read depth) steps first text)
        (Statement.listOfJson items) := by
  induction steps with
  | zero =>
    intro first text rest items done
    cases done
  | succ steps ih =>
    intro first text rest items done
    rcases readItemsFrom_eq_ok done with
      ⟨found, rfl⟩ | ⟨behind, item, middle, others, found, one, more, rfl⟩
    · rw [readItemsFrom, found]
      exact .ok []
    · rw [readItemsFrom, found]
      refine (Statement.agrees_read depth one).bind fun statement => ?_
      exact (ih more).bind fun statements => .ok (statement :: statements)

theorem Statement.agrees_readBody (depth : Nat) :
    Agrees (depth + 2) (Statement.readBody depth) Statement.bodyOfJson := by
  refine agrees_of_opening fun opening value rest completes => ?_
  cases completes with
  | scalar scalar =>
    cases value with
    | arr _ | obj _ => exact scalar.elim
    | null | bool _ | num _ | str _ => exact .error _ _
  | list items => exact Statement.agree_readItemsFrom _ items
  | object members => exact .error _ _

end Statements

/-! ### Declarations -/

section Declarations

variable {depth : Nat}

theorem Fields.agrees_read (fields : Fields) (field : Field) :
    Agrees (depth + 2) (fields.read depth field) fun value => fields.put value field := by
  intro text value rest done
  cases field with
  | name => exact (TypeName.agrees_read? (depth + 2) done).bind fun name => .ok _
  | parent => exact (TypeName.agrees_read? (depth + 2) done).bind fun parent => .ok _
  | body => exact (Statement.agrees_readBody depth done).bind fun body => .ok _

/-- What one member adds to the fields. -/
def Fields.take (fields : Fields) (member : String × Json) : Except Rejection Fields :=
  match Field.ofKey? member.1 with
  | none => .ok fields
  | some field =>
    if fields.has field then .error (.duplicateField field.key) else fields.put member.2 field

/-- Taking the members one by one reads them. -/
theorem Fields.foldlM_take (members : List (String × Json)) :
    ∀ fields : Fields, members.foldlM Fields.take fields = fields.ofMembers members := by
  induction members with
  | nil => exact fun _ => rfl
  | cons member members ih =>
    obtain ⟨key, value⟩ := member
    intro fields
    rw [List.foldlM_cons, take, ofMembers]
    cases Field.ofKey? key with
    | none => exact ih fields
    | some field =>
      by_cases given : fields.has field = true
      · simp only [given, if_true]
        rfl
      · simp only [given]
        exact bind_congr ih

/-- A member that is not known is skimmed from the text and passed by in the value. -/
theorem Fields.agrees_readMember (fields : Fields) (key : String) :
    Agrees (depth + 2) (fun text => fields.readMember depth key >>= fun read => read text)
      fun value => fields.take (key, value) := by
  intro text value rest done
  unfold readMember take
  dsimp only
  cases Field.ofKey? key with
  | none =>
    show Agree rest (Json.skimValue text >>= _) _
    rw [Json.covers_readValue (depth + 2) done]
    exact .ok fields
  | some field =>
    by_cases given : fields.has field = true
    · simp only [given, if_true]
      exact .error _ _
    · simp only [given]
      exact fields.agrees_read field done

/-- After the last field of the list form only its end may come. -/
theorem Fields.closeList_of_nextItem {first : Bool} {text : List Char} {step : Json.Step}
    (found : nextItem first text = (.ok step : Except (Fault Rejection) _)) :
    match step with
    | .close rest => closeList text = .ok ((), rest)
    | .part _ => ∃ fault, closeList text = .error fault := by
  obtain ⟨c, behind, dropped, rest⟩ := Json.nextItem_head found
  unfold closeList
  rw [dropped]
  rcases rest with ⟨bracket, rfl⟩ | ⟨noBracket, inside, rfl⟩
  · exact if_pos bracket
  · dsimp only
    rw [if_neg noBracket]
    split
    · split <;> exact ⟨_, rfl⟩
    · exact ⟨_, rfl⟩

/-- The list form, which may end after any of its fields. -/
theorem Fields.agree_readList (count : Nat) (order : List Field) :
    ∀ {steps : Nat} {first : Bool} {text rest : List Char} {items : List Json} (fields : Fields),
      readItemsFrom (readValue (depth + 2) : Reader Rejection Json) steps first text =
        .ok (items, rest) →
      Agree rest (Fields.readList depth order first fields text)
        (Fields.ofItems count order fields items) := by
  induction order with
  | nil =>
    intro steps first text rest items fields done
    rw [readList]
    rcases readItemsFrom_eq_ok done with ⟨found, rfl⟩ | ⟨_, item, _, others, found, _, _, rfl⟩
    · rw [closeList_of_nextItem found]
      exact .ok fields
    · obtain ⟨fault, refused⟩ := closeList_of_nextItem found
      rw [refused]
      exact .error _ _
  | cons field order ih =>
    intro steps first text rest items fields done
    rw [readList]
    rcases readItemsFrom_eq_ok done with ⟨found, rfl⟩ | ⟨_, item, _, others, found, one, more, rfl⟩
    · rw [found]
      exact .ok fields
    · rw [found]
      exact (fields.agrees_read field one).bind fun next => ih next more

/-- **Declarations.** -/
theorem Declaration.agrees_read (depth : Nat) :
    Agrees (depth + 3) (Declaration.read depth) Declaration.ofJson := by
  refine agrees_of_opening fun opening value rest completes => ?_
  cases completes with
  | scalar scalar =>
    cases value with
    | arr _ | obj _ => exact scalar.elim
    | null | bool _ | num _ | str _ => exact .error _ _
  | list items => exact (Fields.agree_readList _ Field.all {} items).bind fun fields => .ok _
  | object members =>
    obtain ⟨added, rfl, agree⟩ := agree_readMembersFrom Fields.agrees_readMember _ members
    have gathered := agree {}
    rw [Fields.foldlM_take] at gathered
    exact gathered.bind fun fields => .ok _

end Declarations

/-! ### Whole texts -/

section Texts

/-- A text that can be read as a value is read so by the readers of declarations too. -/
theorem Json.readValue_of_parseRaw {text : String} {written : Json}
    (reads : Json.parseRaw text = .ok written) :
    ∃ rest, readValue Json.maxDepth text.toList =
        (.ok (written, rest) : Except (Fault Rejection) _) ∧ Text.dropJsonBlank rest = [] := by
  obtain ⟨rest, one, empty⟩ := Json.readWhole_eq_ok_iff.mp reads
  refine ⟨rest, ?_, empty⟩
  rw [← Json.translate_readValue Empty.elim, one]
  rfl

/-- **From text and from value the same declaration is read.**  Where a text can be read as a value and
repeats no key, reading it as a declaration succeeds exactly when converting the value does, and both
give the same declaration. -/
theorem Declaration.text_and_value_agree {text : String} {value : Json}
    (reads : Json.parse text = .ok value) (once : Json.KeysOnce text) (d : Declaration) :
    Declaration.ofText text = .ok d ↔ Declaration.ofJson value = .ok d := by
  obtain ⟨written, raw, distinct⟩ := once
  obtain rfl : written = value := by
    obtain ⟨found, same, collapsed⟩ := bind_eq_ok reads
    rw [raw] at same
    cases same
    rw [Json.collapse_of_keysOnce written distinct] at collapsed
    exact Except.ok.inj collapsed
  obtain ⟨rest, done, empty⟩ := Json.readValue_of_parseRaw raw
  have agree : Agree rest (Declaration.read Declaration.statementDepth text.toList)
      (Declaration.ofJson written) := Declaration.agrees_read Declaration.statementDepth done
  rw [← agree.eq_ok_iff d, Declaration.ofText, Json.readWhole_eq_ok_iff]
  constructor
  · rintro ⟨other, read, _⟩
    rw [read] at agree
    rw [read, agree.rest_eq]
  · exact fun read => ⟨rest, read, empty⟩

/-- A declaration with an unknown member, its body first, a statement that names its kind last and one
in the list form. -/
def mixedForms : String :=
  "\x7b\"seen\": [12, \x7b\"name\": 0\x7d], \"stmts\": [\x7b\"markers\": [\"\\\\A\"], " ++
    "\"note\": \x7b\x7d, \"kind\": \"capability_use\"\x7d, [\"member\", \"x\"]], \"extends\": null\x7d"

/-- A declaration in the list form with one item too many. -/
def surplusForm : String := "[null, null, [], 0]"

/-- The first text gives a class of two statements both ways, and the second is refused both ways. -/
theorem mixedForms_agree :
    (∃ value d, Json.parse mixedForms = .ok value ∧ Declaration.ofText mixedForms = .ok d ∧
        Declaration.ofJson value = .ok d ∧ d.body.length = 2) ∧
      ∃ value, Json.parse surplusForm = .ok value ∧
        ∀ d, Declaration.ofText surplusForm ≠ .ok d ∧ Declaration.ofJson value ≠ .ok d := by
  constructor
  · have once : Json.KeysOnce mixedForms := by decide +kernel
    have given : (Declaration.ofText mixedForms).toOption.map (·.body.length) = some 2 := by
      decide +kernel
    obtain ⟨value, reads⟩ := once.parse
    cases result : Declaration.ofText mixedForms with
    | error fault =>
      rw [result] at given
      cases given
    | ok d =>
      rw [result] at given
      exact ⟨value, d, reads, rfl, (Declaration.text_and_value_agree reads once d).mp result,
        Option.some.inj given⟩
  · have once : Json.KeysOnce surplusForm := by decide +kernel
    have refused : (Declaration.ofText surplusForm).toOption.isSome = false := by decide +kernel
    obtain ⟨value, reads⟩ := once.parse
    have notText : ∀ d, Declaration.ofText surplusForm ≠ .ok d := by
      intro d given
      rw [given] at refused
      cases refused
    refine ⟨value, reads, fun d => ⟨notText d, fun made => notText d ?_⟩⟩
    exact (Declaration.text_and_value_agree reads once d).mpr made

end Texts

end Mixin
