/-
**Readers take the tokens of what they read.**

However the tokens of a value are spaced, reading gives the value back and leaves what follows.  The
readers of arrays and objects are given the readers of their parts, and so are the statements about
them: if each part is taken from its tokens, the whole is.

* `Begins opening tokens`, `Begins.takes` — how a value begins, and a reader that looks at this first.
* `takes_readItems` — an array of anything.
* `Gathers field start parts finish`, `takes_readMembers` — an object into any state, one member after
  the other.
* `Plain depth value` — a value without numbers that opens at most `depth` brackets at once.
* **`takes_readValue`** — a plain value, so also **`parse_of_spaced`**, a whole document.
* `keysOnce`, `collapse_of_keysOnce` — a value that repeats no key, in which nothing is merged.
-/

import Mixin.Json.Document
import Mixin.Proofs.Json.Escapes
import Mixin.Proofs.Json.Spacing

namespace Mixin.Json

open Text (dropJsonBlank isJsonBlank)

variable {ρ α σ : Type} {more : List Token} {text : List Char}

/-! ### Openings -/

section Openings

/-- Wherever the tokens come first, a value begins as said and a text of what follows is left. -/
def Begins (ρ : Type) (opening : List Char → Opening) (tokens : List Token) : Prop :=
  ∀ more text, Spaced (tokens ++ more) text →
    ∃ rest, (readOpening text : Except (Fault ρ) Opening) = .ok (opening rest) ∧ Spaced more rest

/-- A value begins as the characters of its first token say. -/
theorem begins_token {c : Char} {token : Token} {opening : List Char → Opening}
    (solid : isJsonBlank c = false)
    (reads : ∀ rest, (readOpening (c :: (token ++ rest)) : Except (Fault ρ) Opening) =
      .ok (opening rest)) :
    Begins ρ opening [c :: token] := by
  intro more text spaced
  obtain ⟨rest, dropped, after⟩ := Spaced.first spaced solid
  refine ⟨rest, ?_, after⟩
  rw [← reads rest]
  unfold readOpening
  rw [dropped, dropJsonBlank_of_solid solid]

theorem begins_null : Begins ρ (.scalar null) [write null] :=
  begins_token (by decide) fun _ => rfl

theorem begins_bool (value : Bool) : Begins ρ (.scalar (bool value)) [write (bool value)] := by
  cases value with
  | false => exact begins_token (by decide) fun _ => rfl
  | true => exact begins_token (by decide) fun _ => rfl

theorem begins_str (value : String) : Begins ρ (.scalar (str value)) [writeString value] := by
  intro more text spaced
  obtain ⟨rest, dropped, after⟩ := Spaced.first_string spaced
  refine ⟨rest, ?_, after⟩
  unfold readOpening
  rw [dropped]
  show (readString (value.toList.flatMap escape ++ '"' :: rest) >>= _) = _
  rw [readString_escape]
  rfl

theorem begins_list : Begins ρ .list [['[']] :=
  begins_token (by decide) fun _ => rfl

theorem begins_object : Begins ρ .object [['{']] :=
  begins_token (by decide) fun _ => rfl

/-- **A reader that looks at the opening first** and then hands over to another takes the tokens of
the opening followed by those that the other one takes. -/
theorem Begins.takes {opening : List Char → Opening} {tokens later : List Token}
    {read inside : Reader ρ α} {value : α} (begins : Begins ρ opening tokens)
    (hands : ∀ text rest, (readOpening text : Except (Fault ρ) Opening) = .ok (opening rest) →
      read text = inside rest)
    (takes : Takes inside value later) : Takes read value (tokens ++ later) := by
  intro more text spaced
  rw [List.append_assoc] at spaced
  obtain ⟨rest, opened, after⟩ := begins (later ++ more) text spaced
  rw [hands text rest opened]
  exact takes more rest after

/-- A reader for which the opening is enough takes the tokens of the opening. -/
theorem Begins.takes_all {opening : List Char → Opening} {tokens : List Token} {read : Reader ρ α}
    {value : α} (begins : Begins ρ opening tokens)
    (reads : ∀ text rest, (readOpening text : Except (Fault ρ) Opening) = .ok (opening rest) →
      read text = .ok (value, rest)) :
    Takes read value tokens := by
  intro more text spaced
  obtain ⟨rest, opened, after⟩ := begins more text spaced
  exact ⟨rest, reads text rest opened, after⟩

end Openings

/-! ### Arrays -/

section Arrays

theorem nextItem_close (first : Bool) (spaced : Spaced ([']'] :: more) text) :
    ∃ rest, (nextItem first text : Except (Fault ρ) Step) = .ok (.close rest) ∧
      Spaced more rest := by
  obtain ⟨rest, dropped, after⟩ := Spaced.first spaced (by decide)
  refine ⟨rest, ?_, after⟩
  unfold nextItem
  rw [dropped]
  rfl

/-- The next item of an array is found where its tokens come, after a comma if it is not the first. -/
theorem nextItem_part {first : Bool} {tokens : List Token} (opens : Opens tokens)
    (spaced : Spaced (lead first ++ (tokens ++ more)) text) :
    ∃ rest, (nextItem first text : Except (Fault ρ) Step) = .ok (.part rest) ∧
      Spaced (tokens ++ more) rest := by
  unfold nextItem
  cases first with
  | true =>
    obtain ⟨c, rest, dropped, notClose, here⟩ := opens.drop spaced
    refine ⟨c :: rest, ?_, here⟩
    rw [dropped]
    dsimp only
    rw [if_neg notClose, if_pos rfl]
  | false =>
    obtain ⟨rest, dropped, after⟩ := Spaced.first spaced (by decide)
    obtain ⟨c, part, droppedAfter, notClose, here⟩ := opens.drop after
    refine ⟨c :: part, ?_, here⟩
    rw [dropped]
    dsimp only [List.nil_append]
    rw [if_neg (by decide), if_neg Bool.false_ne_true, if_pos rfl, droppedAfter]
    dsimp only
    rw [if_neg notClose]

variable {read : Reader ρ α} {tokensOf : α → List Token}

/-- The items of an array take a step each, and their end one more. -/
theorem takes_readItemsFrom (values : List α)
    (each : ∀ value ∈ values, Opens (tokensOf value) ∧ Takes read value (tokensOf value)) :
    ∀ steps first, values.length < steps →
      Takes (readItemsFrom read steps first) values
        (row first (values.map tokensOf) ++ [[']']]) := by
  induction values with
  | nil =>
    intro steps first enough more text spaced
    obtain ⟨steps, rfl⟩ := Nat.exists_eq_succ_of_ne_zero (Nat.ne_zero_of_lt enough)
    obtain ⟨rest, closed, after⟩ := nextItem_close first spaced
    refine ⟨rest, ?_, after⟩
    rw [readItemsFrom, closed]
    rfl
  | cons value values ih =>
    intro steps first enough more text spaced
    obtain ⟨steps, rfl⟩ := Nat.exists_eq_succ_of_ne_zero (Nat.ne_zero_of_lt enough)
    obtain ⟨opens, takes⟩ := each value List.mem_cons_self
    rw [List.map_cons, row, List.append_assoc, List.append_assoc, List.append_assoc] at spaced
    obtain ⟨part, next, here⟩ := nextItem_part opens spaced
    obtain ⟨rest, done, after⟩ := takes _ part here
    rw [← List.append_assoc] at after
    obtain ⟨final, doneAll, afterAll⟩ :=
      ih (fun other member => each other (List.mem_cons_of_mem _ member)) steps false
        (Nat.lt_of_succ_lt_succ enough) more rest after
    refine ⟨final, ?_, afterAll⟩
    rw [readItemsFrom, next]
    show (read part >>= _) = _
    rw [done]
    show (readItemsFrom read steps false rest >>= _) = _
    rw [doneAll]
    rfl

/-- **An array is taken from its tokens** when each of its items is. -/
theorem takes_readItems (values : List α)
    (each : ∀ value ∈ values, Opens (tokensOf value) ∧ Takes read value (tokensOf value)) :
    Takes (readItems read) values (row true (values.map tokensOf) ++ [[']']]) := by
  intro more text spaced
  have enough : values.length < text.length :=
    length_lt_of_spaced (fun value member => (each value member).1) spaced
  exact takes_readItemsFrom values each text.length true enough more text spaced

end Arrays

/-! ### Objects -/

section Objects

theorem nextKey_close (first : Bool) (spaced : Spaced (['}'] :: more) text) :
    ∃ rest, (nextKey first text : Except (Fault ρ) Step) = .ok (.close rest) ∧
      Spaced more rest := by
  obtain ⟨rest, dropped, after⟩ := Spaced.first spaced (by decide)
  refine ⟨rest, ?_, after⟩
  unfold nextKey
  rw [dropped]
  rfl

/-- The next key of an object is found in its string, after a comma if it is not the first. -/
theorem nextKey_part {first : Bool} {key : String}
    (spaced : Spaced (lead first ++ writeString key :: more) text) :
    ∃ rest, (nextKey first text : Except (Fault ρ) Step) =
        .ok (.part (key.toList.flatMap escape ++ '"' :: rest)) ∧ Spaced more rest := by
  unfold nextKey
  cases first with
  | true =>
    obtain ⟨rest, dropped, after⟩ := Spaced.first_string spaced
    refine ⟨rest, ?_, after⟩
    rw [dropped]
    rfl
  | false =>
    obtain ⟨before, dropped, spacedKey⟩ := Spaced.first spaced (by decide)
    obtain ⟨rest, droppedKey, after⟩ := spacedKey.first_string
    refine ⟨rest, ?_, after⟩
    rw [dropped]
    dsimp only [List.nil_append]
    rw [if_neg (by decide), if_neg Bool.false_ne_true, if_pos rfl, droppedKey]
    rfl

theorem readColon_token (spaced : Spaced ([':'] :: more) text) :
    ∃ rest, (readColon text : Except (Fault ρ) (Unit × List Char)) = .ok ((), rest) ∧
      Spaced more rest := by
  obtain ⟨rest, dropped, after⟩ := Spaced.first spaced (by decide)
  refine ⟨rest, ?_, after⟩
  unfold readColon
  rw [dropped]
  rfl

variable {field : σ → String → Except (Fault ρ) (Reader ρ σ)}

/-- The members, each a key and the tokens of its value, lead from one state to another: the key
chooses a reader, and the reader takes the tokens for the next state. -/
inductive Gathers (field : σ → String → Except (Fault ρ) (Reader ρ σ)) :
    σ → List (String × List Token) → σ → Prop
  | done {state : σ} : Gathers field state [] state
  | member {state next finish : σ} {key : String} {tokens : List Token}
      {others : List (String × List Token)} {read : Reader ρ σ} :
      field state key = .ok read → Takes read next tokens → Gathers field next others finish →
      Gathers field state ((key, tokens) :: others) finish

/-- The members of an object take a step each, and their end one more. -/
theorem takes_readMembersFrom {start finish : σ} {members : List (String × List Token)}
    (gathers : Gathers field start members finish) :
    ∀ steps first, members.length < steps →
      Takes (readMembersFrom field steps first start) finish
        (row first (members.map keyed) ++ [['}']]) := by
  induction gathers with
  | done =>
    intro steps first enough more text spaced
    obtain ⟨steps, rfl⟩ := Nat.exists_eq_succ_of_ne_zero (Nat.ne_zero_of_lt enough)
    obtain ⟨rest, closed, after⟩ := nextKey_close first spaced
    refine ⟨rest, ?_, after⟩
    rw [readMembersFrom, closed]
    rfl
  | @member state next _ key tokens others read chosen takes _ ih =>
    intro steps first enough more text spaced
    obtain ⟨steps, rfl⟩ := Nat.exists_eq_succ_of_ne_zero (Nat.ne_zero_of_lt enough)
    rw [List.map_cons, row, List.append_assoc, List.append_assoc, List.append_assoc] at spaced
    obtain ⟨afterKey, found, spacedColon⟩ := nextKey_part spaced
    obtain ⟨value, colon, spacedValue⟩ := readColon_token (ρ := ρ) spacedColon
    obtain ⟨rest, done, after⟩ := takes _ value spacedValue
    rw [← List.append_assoc] at after
    obtain ⟨final, doneAll, afterAll⟩ :=
      ih steps false (Nat.lt_of_succ_lt_succ enough) more rest after
    refine ⟨final, ?_, afterAll⟩
    rw [readMembersFrom, found]
    show (readString (key.toList.flatMap escape ++ '"' :: afterKey) >>= _) = _
    rw [readString_escape]
    show (field state key >>= _) = _
    rw [chosen]
    show (readColon afterKey >>= _) = _
    rw [colon]
    show (read value >>= _) = _
    rw [done]
    exact doneAll

/-- **An object is taken from its tokens** when its members lead from the first state to the last. -/
theorem takes_readMembers {start finish : σ} {members : List (String × List Token)}
    (gathers : Gathers field start members finish) :
    Takes (readMembers field start) finish (row true (members.map keyed) ++ [['}']]) := by
  intro more text spaced
  have enough : members.length < text.length :=
    length_lt_of_spaced (fun member _ => opens_keyed member) spaced
  exact takes_readMembersFrom gathers text.length true enough more text spaced

end Objects

/-! ### Values -/

section Values

/-- A value without numbers in which at most `depth` brackets are open at once. -/
def Plain : Nat → Json → Prop
  | _, null | _, bool _ | _, str _ => True
  | _, num _ => False
  | 0, arr _ | 0, obj _ => False
  | depth + 1, arr items => ∀ item ∈ items, Plain depth item
  | depth + 1, obj members => ∀ member ∈ members, Plain depth member.2

/-- A plain value begins with a word, a string or a bracket. -/
theorem opens_tokens {depth : Nat} {value : Json} (plain : Plain depth value) :
    Opens (tokens value) := by
  cases value with
  | num number => cases depth <;> exact plain.elim
  | null => exact ⟨_, _, _, rfl, by decide⟩
  | bool value => cases value <;> exact ⟨_, _, _, rfl, by decide⟩
  | str text => exact ⟨_, _, _, rfl, by decide⟩
  | arr items => exact ⟨_, _, _, by rw [tokens], by decide⟩
  | obj members => exact ⟨_, _, _, by rw [tokens], by decide⟩

/-- A scalar is read by its opening, whatever the reader of parts. -/
theorem takes_readWith_scalar (inner : Option (Reader ρ Json)) {value : Json} {tokens : List Token}
    (begins : Begins ρ (.scalar value) tokens) : Takes (readWith inner) value tokens := by
  refine begins.takes_all fun text rest opened => ?_
  unfold readWith
  rw [opened]
  rfl

theorem takes_readWith_arr {inner : Reader ρ Json} {items : List Json}
    (each : ∀ item ∈ items, Opens (tokens item) ∧ Takes inner item (tokens item)) :
    Takes (readWith (some inner)) (arr items) (tokens (arr items)) := by
  rw [tokens_arr]
  refine begins_list.takes (fun text rest opened => ?_) ((takes_readItems items each).map arr)
  unfold readWith
  rw [opened]
  rfl

/-- Adds a member to those already read. -/
def readInto (inner : Reader ρ Json) (members : List (String × Json)) (key : String) :
    Except (Fault ρ) (Reader ρ (List (String × Json))) :=
  .ok fun text => do
    let (value, rest) ← inner text
    .ok (members ++ [(key, value)], rest)

theorem gathers_readInto {inner : Reader ρ Json} (members : List (String × Json))
    (each : ∀ member ∈ members, Takes inner member.2 (tokens member.2)) :
    ∀ before, Gathers (readInto inner) before
      (members.map fun member => (member.1, tokens member.2)) (before ++ members) := by
  induction members with
  | nil =>
    intro before
    rw [List.append_nil]
    exact .done
  | cons member members ih =>
    intro before
    have later := ih (fun other listed => each other (List.mem_cons_of_mem _ listed))
      (before ++ [member])
    rw [List.append_assoc, List.singleton_append] at later
    exact .member rfl ((each member List.mem_cons_self).map fun value =>
      before ++ [(member.1, value)]) later

theorem takes_readWith_obj {inner : Reader ρ Json} {members : List (String × Json)}
    (each : ∀ member ∈ members, Takes inner member.2 (tokens member.2)) :
    Takes (readWith (some inner)) (obj members) (tokens (obj members)) := by
  have inOrder := takes_readMembers (gathers_readInto members each [])
  rw [tokens_obj]
  refine begins_object.takes (fun text rest opened => ?_) (inOrder.map obj)
  unfold readWith
  rw [opened]
  rfl

/-- **A plain value is taken from its tokens.**  The induction is on the depth, as the reader's own
recursion is. -/
theorem takes_readValue (depth : Nat) :
    ∀ value, Plain depth value → Takes (readValue depth : Reader ρ Json) value (tokens value) := by
  induction depth with
  | zero =>
    intro value plain
    cases value with
    | null => exact takes_readWith_scalar none begins_null
    | bool value => exact takes_readWith_scalar none (begins_bool value)
    | str text => exact takes_readWith_scalar none (begins_str text)
    | num number => exact plain.elim
    | arr items => exact plain.elim
    | obj members => exact plain.elim
  | succ depth ih =>
    intro value plain
    cases value with
    | null => exact takes_readWith_scalar (some (readValue depth)) begins_null
    | bool value => exact takes_readWith_scalar (some (readValue depth)) (begins_bool value)
    | str text => exact takes_readWith_scalar (some (readValue depth)) (begins_str text)
    | num number => exact plain.elim
    | arr items =>
      exact takes_readWith_arr fun item member =>
        ⟨opens_tokens (plain item member), ih item (plain item member)⟩
    | obj members =>
      exact takes_readWith_obj fun member listed => ih member.2 (plain member listed)

end Values

/-! ### Repeated keys -/

section Merging

theorem collapse_null : collapse null = null := by simp [collapse]

theorem collapse_str (text : String) : collapse (str text) = str text := by simp [collapse]

theorem collapse_arr (items : List Json) : collapse (arr items) = arr (items.map collapse) := by
  have itemwise : ∀ items, collapseItems items = items.map collapse := by
    intro items
    induction items with
    | nil => rw [collapseItems, List.map_nil]
    | cons item rest ih => rw [collapseItems, ih, List.map_cons]
  rw [collapse, itemwise]

/-- Members with new keys are placed after those already placed. -/
theorem collapseMembers_of_nodup (members : List (String × Json)) :
    ∀ placed : List (String × Json), ((placed ++ members).map Prod.fst).Nodup →
      collapseMembers placed members =
        placed ++ members.map fun member => (member.1, collapse member.2) := by
  induction members with
  | nil =>
    intro placed _
    rw [collapseMembers, List.map_nil, List.append_nil]
  | cons member rest ih =>
    obtain ⟨key, value⟩ := member
    intro placed distinct
    have new : key ∉ placed.map Prod.fst := by
      intro old
      rw [List.map_append, List.nodup_append] at distinct
      exact distinct.2.2 key old key List.mem_cons_self rfl
    have distinctLater : ((placed ++ [(key, collapse value)] ++ rest).map Prod.fst).Nodup := by
      simpa using distinct
    rw [collapseMembers, place_of_not_mem new, ih _ distinctLater, List.append_assoc]
    rfl

/-- Where no key is repeated, merging keeps every member in its place. -/
theorem collapse_obj_of_nodup {members : List (String × Json)}
    (distinct : (members.map Prod.fst).Nodup) :
    collapse (obj members) = obj (members.map fun member => (member.1, collapse member.2)) := by
  rw [collapse, collapseMembers_of_nodup members [] distinct, List.nil_append]

mutual

/-- Whether no object of the value repeats a key, at any depth. -/
def keysOnce : Json → Bool
  | arr items => keysOnceItems items
  | obj members => decide (members.map Prod.fst).Nodup && keysOnceMembers members
  | _ => true

/-- Whether no item of an array repeats a key. -/
def keysOnceItems : List Json → Bool
  | [] => true
  | item :: rest => keysOnce item && keysOnceItems rest

/-- Whether no value of an object's members repeats a key. -/
def keysOnceMembers : List (String × Json) → Bool
  | [] => true
  | (_, value) :: rest => keysOnce value && keysOnceMembers rest

end

mutual

/-- Where no key is repeated there is nothing to merge. -/
theorem collapse_of_keysOnce : ∀ value : Json, value.keysOnce = true → collapse value = value
  | null, _ | bool _, _ | num _, _ | str _, _ => by simp [collapse]
  | arr items, once => by
    rw [keysOnce] at once
    rw [collapse_arr, collapse_items_of_keysOnce items once]
  | obj members, once => by
    rw [keysOnce, Bool.and_eq_true, decide_eq_true_eq] at once
    rw [collapse_obj_of_nodup once.1, collapse_members_of_keysOnce members once.2]

theorem collapse_items_of_keysOnce : ∀ items : List Json, keysOnceItems items = true →
    items.map collapse = items
  | [], _ => rfl
  | item :: rest, once => by
    rw [keysOnceItems, Bool.and_eq_true] at once
    rw [List.map_cons, collapse_of_keysOnce item once.1, collapse_items_of_keysOnce rest once.2]

theorem collapse_members_of_keysOnce : ∀ members : List (String × Json),
    keysOnceMembers members = true →
    (members.map fun member => (member.1, collapse member.2)) = members
  | [], _ => rfl
  | (key, value) :: rest, once => by
    rw [keysOnceMembers, Bool.and_eq_true] at once
    rw [List.map_cons, collapse_of_keysOnce value once.1, collapse_members_of_keysOnce rest once.2]

end

end Merging

/-! ### Whole texts -/

section Documents

/-- A whole text is read when the reader leaves only blanks. -/
theorem readWhole_eq_ok_iff {read : Reader ρ α} {source : String} {value : α} :
    readWhole read source = .ok value ↔
      ∃ rest, read source.toList = .ok (value, rest) ∧ dropJsonBlank rest = [] := by
  unfold readWhole
  cases read source.toList with
  | error fault => simp [bind, Except.bind]
  | ok found =>
    obtain ⟨found, rest⟩ := found
    constructor
    · intro done
      dsimp only [bind, Except.bind] at done
      split at done
      · rename_i empty
        cases done
        exact ⟨rest, rfl, empty⟩
      · cases done
    · rintro ⟨_, same, empty⟩
      cases same
      dsimp only [bind, Except.bind]
      rw [empty]

/-- A whole text of the tokens that a reader takes is read. -/
theorem readWhole_of_takes {read : Reader ρ α} {value : α} {tokens : List Token} {source : String}
    (takes : Takes read value tokens) (spaced : Spaced tokens source.toList) :
    readWhole read source = .ok value := by
  rw [← tokens.append_nil] at spaced
  obtain ⟨rest, done, after⟩ := takes [] source.toList spaced
  unfold readWhole
  rw [done]
  dsimp only [bind, Except.bind]
  rw [after.drop_nil]

/-- **A document that spells out a plain value is read as the value**, with repeated keys merged. -/
theorem parse_of_spaced {value : Json} {source : String} (plain : Plain maxDepth value)
    (spaced : Spaced (tokens value) source.toList) : parse source = .ok value.collapse := by
  unfold parse parseRaw
  rw [readWhole_of_takes (takes_readValue maxDepth value plain) spaced]
  rfl

/-- The text can be read, and no object written in it repeats a key. -/
def KeysOnce (text : String) : Prop :=
  ∃ written, parseRaw text = .ok written ∧ written.keysOnce = true

instance (text : String) : Decidable (KeysOnce text) :=
  match reads : parseRaw text with
  | .ok written =>
    decidable_of_iff (written.keysOnce = true)
      ⟨fun once => ⟨written, reads, once⟩,
        fun ⟨_, same, once⟩ => Except.ok.inj (reads.symm.trans same) ▸ once⟩
  | .error _ => isFalse fun ⟨_, same, _⟩ => nomatch reads.symm.trans same

theorem KeysOnce.parse {text : String} (once : KeysOnce text) : ∃ value, Json.parse text = .ok value := by
  obtain ⟨written, reads, _⟩ := once
  exact ⟨written.collapse, by rw [Json.parse, reads]; rfl⟩

end Documents

end Mixin.Json
