/-
**Declarations are local.**

A declaration ends with a brace or a bracket, so the characters that it takes give it again in front of
any text.  This goes through the readers of its parts: names and kinds are strings, what a statement
holds is a list of values, and a member that nobody asked for is skimmed.

* `Statement.local_read`, `Fields.peeking_readMember` — statements and members.
* **`Declaration.delimited_read`** — whole declarations.
-/

import Mixin.Declaration.OfText
import Mixin.Proofs.Json.SkimLocality

namespace Mixin

open Json (Opening Peeking Advances Delimited local_of_opening head?_append_of_ne_nil)

/-! ### Names and kinds -/

section Words

variable {opening : Opening} {rest : List Char}

theorem Json.textOf_eq_ok {expected : Expected} {text : String}
    (found : Json.textOf expected opening = .ok (text, rest)) :
    opening = .scalar (.str text) rest := by
  unfold Json.textOf at found
  split at found
  · cases found
    rfl
  all_goals cases found

theorem TypeName.ofOpening_eq_ok {name : TypeName}
    (found : TypeName.ofOpening opening = .ok (name, rest)) :
    ∃ spelling, opening = .scalar (.str spelling) rest ∧
      Fault.ofRejection (TypeName.ofSpelling spelling) = .ok name := by
  obtain ⟨⟨spelling, behind⟩, text, checked⟩ := bind_eq_ok found
  obtain ⟨known, named, same⟩ := bind_eq_ok checked
  cases same
  exact ⟨spelling, Json.textOf_eq_ok text, named⟩

theorem TypeName.peeking_read? : Peeking TypeName.read? := by
  suffices Peeking TypeName.read? ∧ Advances TypeName.read? from this.1
  refine local_of_opening fun opening value rest done => ?_
  split at done
  · cases done
    exact ⟨[], rfl, fun _ _ => rfl⟩
  · obtain ⟨⟨name, behind⟩, found, same⟩ := bind_eq_ok done
    cases same
    obtain ⟨spelling, rfl, named⟩ := TypeName.ofOpening_eq_ok found
    refine ⟨[], rfl, fun after _ => ?_⟩
    show ((Fault.ofRejection (TypeName.ofSpelling spelling) >>= _) >>= _) = _
    rw [named]
    rfl

theorem Kind.peeking_read : Peeking Kind.read := by
  suffices Peeking Kind.read ∧ Advances Kind.read from this.1
  refine local_of_opening fun opening value rest done => ?_
  obtain ⟨⟨word, behind⟩, text, checked⟩ := bind_eq_ok done
  obtain ⟨kind, known, same⟩ := bind_eq_ok checked
  cases same
  obtain rfl := Json.textOf_eq_ok text
  refine ⟨[], rfl, fun after _ => ?_⟩
  show (Fault.ofRejection (Kind.ofWord word) >>= _) = _
  rw [known]
  rfl

end Words

/-! ### Statements -/

section Statements

theorem Statement.peeking_readMember (depth : Nat) (split : Option Kind × List (String × Json))
    (key : String) (read : Reader Rejection (Option Kind × List (String × Json)))
    (chosen : Statement.readMember depth split key = .ok read) : Peeking read := by
  unfold Statement.readMember at chosen
  split at chosen
  · split at chosen
    · cases chosen
    · cases chosen
      exact Kind.peeking_read.map fun kind => (some kind, split.2)
  · cases chosen
    exact (Json.local_readValue depth).1.map fun value => (split.1, split.2 ++ [(key, value)])

theorem Statement.delimited_readList (depth : Nat) : Delimited (Statement.readList depth) := by
  intro text value rest done
  obtain ⟨step, found, finished⟩ := bind_eq_ok done
  cases step with
  | close behind => cases finished
  | part behind =>
    obtain ⟨⟨kind, afterKind⟩, first, finished⟩ := bind_eq_ok finished
    obtain ⟨⟨items, afterItems⟩, others, finished⟩ := bind_eq_ok finished
    obtain ⟨statement, meant, same⟩ := bind_eq_ok finished
    cases same
    obtain ⟨peeking, advances⟩ := Json.local_readValue (ρ := Rejection) depth
    obtain ⟨front, rfl, _, alwaysFront⟩ := Json.item_again Kind.peeking_read found first
    obtain ⟨back, someBack, rfl, alwaysBack⟩ :=
      Json.delimited_readMoreItems peeking advances others
    refine ⟨front ++ back, by simp [someBack], by simp, fun after => ?_⟩
    obtain ⟨again, part, one⟩ := alwaysFront _ (head?_append_of_ne_nil someBack after rest)
    rw [List.append_assoc, Statement.readList, part]
    show (Kind.read again >>= _) = _
    rw [one]
    show (Json.readMoreItems (Json.readValue depth) (back ++ after) >>= _) = _
    rw [alwaysBack]
    show (Fault.ofRejection (Statement.ofItems kind items) >>= _) = _
    rw [meant]
    rfl

/-- **Statements are local.** -/
theorem Statement.local_read (depth : Nat) :
    Peeking (Statement.read depth) ∧ Advances (Statement.read depth) := by
  refine local_of_opening fun opening value rest done => ?_
  cases opening with
  | scalar found behind => cases done
  | list behind =>
    obtain ⟨back, _, rfl, always⟩ := Statement.delimited_readList depth done
    exact ⟨back, rfl, fun after _ => always after⟩
  | object behind =>
    obtain ⟨⟨split, final⟩, members, finished⟩ := bind_eq_ok done
    obtain ⟨statement, meant, same⟩ := bind_eq_ok finished
    cases same
    obtain ⟨back, _, rfl, always⟩ :=
      Json.delimited_readMembers (Statement.peeking_readMember depth) (none, []) members
    refine ⟨back, rfl, fun after _ => ?_⟩
    show (Json.readMembers (Statement.readMember depth) (none, []) (back ++ after) >>= _) = _
    rw [always]
    show (Fault.ofRejection (Statement.ofSplit split) >>= _) = _
    rw [meant]
    rfl

theorem Statement.peeking_readBody (depth : Nat) : Peeking (Statement.readBody depth) := by
  suffices Peeking (Statement.readBody depth) ∧ Advances (Statement.readBody depth) from this.1
  refine local_of_opening fun opening value rest done => ?_
  cases opening with
  | scalar found behind => cases done
  | list behind =>
    obtain ⟨peeking, advances⟩ := Statement.local_read depth
    obtain ⟨back, _, rfl, always⟩ := Json.delimited_readItems peeking advances done
    exact ⟨back, rfl, fun after _ => always after⟩
  | object behind => cases done

end Statements

/-! ### Declarations -/

section Declarations

theorem Fields.peeking_read (depth : Nat) (fields : Fields) (field : Field) :
    Peeking (fields.read depth field) := by
  cases field with
  | name => exact TypeName.peeking_read?.map fun name => ({ fields with name := some name } : Fields)
  | parent =>
    exact TypeName.peeking_read?.map fun parent => ({ fields with parent := some parent } : Fields)
  | body =>
    exact (Statement.peeking_readBody depth).map fun body =>
      ({ fields with body := some body } : Fields)

theorem Fields.peeking_readMember (depth : Nat) (fields : Fields) (key : String)
    (read : Reader Rejection Fields) (chosen : fields.readMember depth key = .ok read) :
    Peeking read := by
  unfold Fields.readMember at chosen
  split at chosen
  · cases chosen
    exact Json.peeking_skimValue.map fun _ => fields
  · split at chosen
    · cases chosen
    · cases chosen
      exact fields.peeking_read depth _

theorem Fields.delimited_closeList : Delimited Fields.closeList := by
  intro text value rest done
  unfold Fields.closeList at done
  split at done
  · cases done
  · rename_i c middle dropped
    split at done
    · rename_i bracket
      cases done
      obtain ⟨blanks, rfl, always⟩ := Json.dropJsonBlank_again dropped
      refine ⟨blanks ++ [c], by simp, by simp, fun after => ?_⟩
      unfold Fields.closeList
      rw [List.append_assoc, List.singleton_append, always]
      exact if_pos bracket
    · split at done
      · split at done <;> cases done
      · cases done

/-- The list form of a declaration may end after any of its fields. -/
theorem Fields.delimited_readList (depth : Nat) (order : List Field) :
    ∀ (first : Bool) (fields : Fields), Delimited (Fields.readList depth order first fields) := by
  induction order with
  | nil =>
    intro first fields text value rest done
    obtain ⟨⟨_, final⟩, closed, same⟩ := bind_eq_ok done
    cases same
    obtain ⟨taken, some, rfl, always⟩ := Fields.delimited_closeList closed
    refine ⟨taken, some, rfl, fun after => ?_⟩
    rw [Fields.readList, always]
    rfl
  | cons field others ih =>
    intro first fields text value rest done
    obtain ⟨step, found, finished⟩ := bind_eq_ok done
    cases step with
    | close behind =>
      cases finished
      obtain ⟨taken, some, rfl, always⟩ := Json.nextItem_close_again found
      refine ⟨taken, some, rfl, fun after => ?_⟩
      rw [Fields.readList, always]
      rfl
    | part behind =>
      obtain ⟨⟨next, middle⟩, one, more⟩ := bind_eq_ok finished
      obtain ⟨front, rfl, _, alwaysFront⟩ :=
        Json.item_again (fields.peeking_read depth field) found one
      obtain ⟨back, someBack, rfl, alwaysBack⟩ := ih false next more
      refine ⟨front ++ back, by simp [someBack], by simp, fun after => ?_⟩
      obtain ⟨again, part, field⟩ := alwaysFront _ (head?_append_of_ne_nil someBack after rest)
      rw [List.append_assoc, Fields.readList, part]
      show (fields.read depth _ again >>= _) = _
      rw [field]
      exact alwaysBack after

/-- **Declarations are delimited.**  What a declaration takes gives it again in front of any text. -/
theorem Declaration.delimited_read (depth : Nat) : Delimited (Declaration.read depth) := by
  refine Json.delimited_of_opening fun opening value rest done => ?_
  cases opening with
  | scalar found behind => cases done
  | list behind =>
    obtain ⟨⟨fields, final⟩, list, same⟩ := bind_eq_ok done
    cases same
    obtain ⟨back, some, rfl, always⟩ := Fields.delimited_readList depth Field.all true {} list
    refine ⟨back, some, rfl, fun after => ?_⟩
    show (Fields.readList depth Field.all true {} (back ++ after) >>= _) = _
    rw [always]
    rfl
  | object behind =>
    obtain ⟨⟨fields, final⟩, members, same⟩ := bind_eq_ok done
    cases same
    obtain ⟨back, some, rfl, always⟩ :=
      Json.delimited_readMembers (Fields.peeking_readMember depth) {} members
    refine ⟨back, some, rfl, fun after => ?_⟩
    show (Json.readMembers (Fields.readMember depth) {} (back ++ after) >>= _) = _
    rw [always]
    rfl

/-- What opens a value is no blank, in the wide sense too. -/
theorem Json.not_isBlank_of_opened {c : Char} {text : List Char}
    (solid : Text.isJsonBlank c = false) {opening : Opening}
    (opened : Json.readOpening (c :: text) = (.ok opening : Except (Fault Rejection) _)) :
    Text.isBlank c = false := by
  rw [← Bool.not_eq_true]
  intro blank
  have differs : ∀ d, Text.isBlank d = false → c ≠ d := by
    rintro d other rfl
    exact absurd blank (by rw [other]; exact Bool.false_ne_true)
  have noDigit : ¬ c.isDigit = true := by
    intro digit
    simp only [Char.isDigit, Bool.and_eq_true, decide_eq_true_eq, ge_iff_le,
      UInt32.le_iff_toNat_le] at digit
    change 48 ≤ c.val.toNat ∧ c.val.toNat ≤ 57 at digit
    simp only [Text.isBlank, Char.toNat, Bool.or_eq_true, Bool.and_eq_true, decide_eq_true_eq,
      beq_iff_eq] at blank
    omega
  unfold Json.readOpening at opened
  rw [Json.dropJsonBlank_of_solid solid] at opened
  dsimp only at opened
  rw [if_neg (differs 'n' (by decide)), if_neg (differs 't' (by decide)),
    if_neg (differs 'f' (by decide)), if_neg (differs '"' (by decide)),
    if_neg (differs '-' (by decide)), if_neg noDigit, if_neg (differs '[' (by decide)),
    if_neg (differs '{' (by decide))] at opened
  cases opened

/-- A declaration begins with no blank, in the wide sense too. -/
theorem Declaration.not_isBlank_of_read {depth : Nat} {c : Char} {text rest : List Char}
    {d : Declaration} (solid : Text.isJsonBlank c = false)
    (done : Declaration.read depth (c :: text) = .ok (d, rest)) : Text.isBlank c = false := by
  obtain ⟨opening, opened, _⟩ := bind_eq_ok done
  exact Json.not_isBlank_of_opened solid opened

end Declarations

end Mixin
