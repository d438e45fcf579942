/-
**Loading a mapping again.**

The names of a loaded mapping, in normal form and in order, make a draft (`Mapping.draft`).  Loading
this draft finds no repeated base, no repeated marker and no misspelt name; only the look at whether a
base is blank can come out differently.  It trims a base before it drops the leading separator, and a
name may be made of blanks outside ASCII: written with a leading separator, such a name is not taken
for a blank one, while its normal form can look like nothing but a separator.

* `ofDraft_draft`, `ofDraft_draft_error` — the draft of any mapping gives the mapping back, or the
  error for an empty base.
* `trim_ne_nil_of_parseBase` — the name of a loaded base is not blank throughout.
* **`reload_exact`** — a loaded mapping loads again, as it is and without an event, exactly when none
  of its bases is trimmed to a lone separator.
* `reload_refused` — a mapping that loads, and whose draft does not.
-/

import Mathlib.Data.List.TakeWhile
import Mixin.Mapping.Load
import Mixin.Proofs.Computation
import Mixin.Proofs.TypeName.Grammar

namespace Mixin

/-! ### Trimming -/

section Trimming

namespace Text

variable {text : List Char}

/-- A text of which nothing is left is blank throughout. -/
theorem isBlank_of_trim_eq_nil (nothing : trim text = []) : ∀ c ∈ text, isBlank c = true := by
  have backwards : (text.dropWhile isBlank).reverse.dropWhile isBlank = [] :=
    List.reverse_eq_nil_iff.mp nothing
  have behind : ∀ c ∈ text.dropWhile isBlank, isBlank c = true := by
    intro c member
    exact List.dropWhile_eq_nil_iff.mp backwards c (List.mem_reverse.mpr member)
  intro c member
  rw [← List.takeWhile_append_dropWhile (p := isBlank) (l := text), List.mem_append] at member
  rcases member with front | back
  · exact List.mem_takeWhile_imp front
  · exact behind c back

/-- Of a character that is not blank, with blanks behind it, the character is left. -/
theorem trim_cons_of_blank {c : Char} (solid : isBlank c = false)
    (blank : ∀ d ∈ text, isBlank d = true) : trim (c :: text) = [c] := by
  have notBlank : ¬ isBlank c = true := by simp [solid]
  have backwards : ∀ d ∈ text.reverse, isBlank d = true := fun d member =>
    blank d (List.mem_reverse.mp member)
  unfold trim
  rw [List.dropWhile_cons_of_neg notBlank, List.reverse_cons,
    List.dropWhile_append_of_pos backwards, List.dropWhile_cons_of_neg notBlank]
  rfl

end Text

namespace TypeName

/-- Only nothing and a lone separator have nothing behind the separator. -/
theorem dropSeparator_eq_nil_iff {text : List Char} :
    dropSeparator text = [] ↔ text = [] ∨ text = [separator] := by
  cases text with
  | nil => simp [dropSeparator]
  | cons first rest =>
    by_cases leading : first = separator
    · simp [dropSeparator, leading]
    · simp [dropSeparator, leading]

end TypeName

end Trimming

namespace Mapping

/-! ### Bases -/

section Bases

variable {base : TypeName}

/-- The normal form of a base is accepted unless it looks empty. -/
theorem parseBase_text (base : TypeName) :
    parseBase base.text =
      if TypeName.dropSeparator (Text.trim base.text.toList) = [] then .error .emptyBase
      else .ok base := by
  unfold parseBase
  simp only [TypeName.parse_text, List.isEmpty_iff]

/-- **The name of an accepted base is not blank throughout**, in whichever spelling it came. -/
theorem trim_ne_nil_of_parseBase {raw : String} (accepted : parseBase raw = .ok base) :
    Text.trim base.text.toList ≠ [] := by
  intro nothing
  have blank := Text.isBlank_of_trim_eq_nil nothing
  unfold parseBase at accepted
  split at accepted
  · cases accepted
  · rename_i notEmpty
    rw [List.isEmpty_iff, TypeName.dropSeparator_eq_nil_iff] at notEmpty
    split at accepted
    · rename_i name read
      cases accepted
      rcases TypeName.parse_eq_ok_iff.mp read with plain | leading
      · exact notEmpty (.inl (plain ▸ nothing))
      · rw [leading] at notEmpty
        exact notEmpty (.inr (Text.trim_cons_of_blank (by decide) blank))
    · cases accepted

end Bases

/-! ### The draft of a mapping -/

section Drafts

/-- An entry in the normal forms of its names. -/
def spell (entry : TypeName × List TypeName) : String × List String :=
  Prod.map TypeName.text (List.map TypeName.text) entry

/-- A mapping as it would be written: the normal forms of its names, in order. -/
def draft (mapping : Mapping) : Draft :=
  mapping.table.relabel TypeName.text (List.map TypeName.text) TypeName.text_injective

theorem parseMarkers_text (base : TypeName) (markers : List TypeName) :
    parseMarkers base (markers.map TypeName.text) = .ok markers := by
  induction markers with
  | nil => rfl
  | cons marker rest ih =>
    simp only [List.map_cons, parseMarkers, TypeName.parse_text, ih]
    rfl

/-- A mapping is its entries. -/
theorem eq_of_entries {left right : Mapping} (same : left.entries = right.entries) :
    left = right := by
  obtain ⟨⟨_, _⟩, _⟩ := left
  obtain ⟨⟨_, _⟩, _⟩ := right
  obtain rfl : _ = _ := same
  rfl

variable {mapping : Mapping} {entry : TypeName × List TypeName}
  {entries : List (TypeName × List TypeName)}

/-- **One entry**: with a new base that is accepted and with distinct markers, it is added as it is
and tells nothing. -/
theorem addEntries_spell_cons (accepted : parseBase entry.1.text = .ok entry.1)
    (distinct : ((mapping.entries ++ entry :: entries).map Prod.fst).Nodup)
    (distinctMarkers : entry.2.Nodup) :
    ∃ grown : Mapping, grown.entries = mapping.entries ++ [entry] ∧
      addEntries mapping ((entry :: entries).map spell) = addEntries grown (entries.map spell) := by
  have new : entry.1 ∉ mapping.bases := by
    rw [List.map_append, List.nodup_append] at distinct
    exact fun old => distinct.2.2 _ old entry.1 (by simp) rfl
  have fresh : freshBy id [] entry.2 = entry.2 :=
    freshBy_of_nodup (by simpa using distinctMarkers) fun _ _ => List.not_mem_nil
  have added : mapping.addEntry (spell entry) = .ok ⟨mapping.push entry.1 entry.2 new, []⟩ := by
    unfold addEntry spell
    simp only [Prod.map, accepted, bind, Except.bind, new, dite_false, parseMarkers_text,
      repeatsBy_of_freshBy fresh, List.map_nil]
  refine ⟨mapping.push entry.1 entry.2 new, ?_, ?_⟩
  · show mapping.entries ++ [(entry.1, freshBy id [] entry.2)] = _
    rw [fresh]
  · simp only [List.map_cons, addEntries, added, bind, Except.bind, List.nil_append]
    cases addEntries (mapping.push entry.1 entry.2 new) (entries.map spell) <;> rfl

/-- Entries that are all accepted are added one after the other. -/
theorem addEntries_spell (accepted : ∀ entry ∈ entries, parseBase entry.1.text = .ok entry.1)
    (distinct : ((mapping.entries ++ entries).map Prod.fst).Nodup)
    (distinctMarkers : ∀ entry ∈ entries, entry.2.Nodup) :
    ∃ final : Mapping, addEntries mapping (entries.map spell) = .ok ⟨final, []⟩ ∧
      final.entries = mapping.entries ++ entries := by
  induction entries generalizing mapping with
  | nil => exact ⟨mapping, rfl, by simp⟩
  | cons entry rest ih =>
    obtain ⟨grown, grew, added⟩ := addEntries_spell_cons (accepted entry List.mem_cons_self) distinct
      (distinctMarkers entry List.mem_cons_self)
    have moved : grown.entries ++ rest = mapping.entries ++ entry :: rest := by simp [grew]
    rw [added, ← moved]
    exact ih (fun other later => accepted other (.tail _ later)) (by rw [moved]; exact distinct)
      fun other later => distinctMarkers other (.tail _ later)

/-- A base that looks empty is the error, since nothing before it can be. -/
theorem addEntries_spell_error (refused : ∃ entry ∈ entries,
      TypeName.dropSeparator (Text.trim entry.1.text.toList) = [])
    (distinct : ((mapping.entries ++ entries).map Prod.fst).Nodup)
    (distinctMarkers : ∀ entry ∈ entries, entry.2.Nodup) :
    addEntries mapping (entries.map spell) = .error .emptyBase := by
  induction entries generalizing mapping with
  | nil => simp at refused
  | cons entry rest ih =>
    have base := parseBase_text entry.1
    by_cases here : TypeName.dropSeparator (Text.trim entry.1.text.toList) = []
    · rw [if_pos here] at base
      simp only [List.map_cons, addEntries, addEntry, spell, Prod.map, base, bind, Except.bind]
    · rw [if_neg here] at base
      obtain ⟨grown, grew, added⟩ := addEntries_spell_cons base distinct
        (distinctMarkers entry List.mem_cons_self)
      have moved : grown.entries ++ rest = mapping.entries ++ entry :: rest := by simp [grew]
      have later : ∃ other ∈ rest, TypeName.dropSeparator (Text.trim other.1.text.toList) = [] := by
        simpa [here] using refused
      rw [added]
      exact ih later (by rw [moved]; exact distinct) fun other behind =>
        distinctMarkers other (.tail _ behind)

/-- **The draft of a mapping gives the mapping back**, without an event, when no base looks empty. -/
theorem ofDraft_draft (mapping : Mapping) (noneEmpty : ∀ base ∈ mapping.bases,
      TypeName.dropSeparator (Text.trim base.text.toList) ≠ []) :
    ofDraft mapping.draft = .ok ⟨mapping, []⟩ := by
  have accepted : ∀ entry ∈ mapping.entries, parseBase entry.1.text = .ok entry.1 := by
    intro entry member
    rw [parseBase_text, if_neg (noneEmpty entry.1 (List.mem_map_of_mem member))]
  obtain ⟨final, added, same⟩ :=
    @addEntries_spell empty mapping.entries accepted mapping.table.distinct mapping.distinct
  have unchanged : final = mapping := eq_of_entries same
  rw [unchanged] at added
  exact added

/-- Otherwise it is refused for an empty base. -/
theorem ofDraft_draft_error (mapping : Mapping) (someEmpty : ∃ base ∈ mapping.bases,
      TypeName.dropSeparator (Text.trim base.text.toList) = []) :
    ofDraft mapping.draft = .error .emptyBase := by
  have refused : ∃ entry ∈ mapping.entries,
      TypeName.dropSeparator (Text.trim entry.1.text.toList) = [] := by
    obtain ⟨base, listed, looksEmpty⟩ := someEmpty
    obtain ⟨entry, member, rfl⟩ := List.mem_map.mp listed
    exact ⟨entry, member, looksEmpty⟩
  exact @addEntries_spell_error empty mapping.entries refused mapping.table.distinct mapping.distinct

end Drafts

/-! ### Loaded mappings -/

section Loaded

variable {loaded : Logged Mapping}

/-- What adding an entry does when it succeeds: it reads a new base and its markers, and adds them. -/
theorem addEntry_eq_ok {mapping : Mapping} {raw : String × List String}
    (added : mapping.addEntry raw = .ok loaded) :
    ∃ base markers, ∃ new : base ∉ mapping.bases, parseBase raw.1 = .ok base ∧
      parseMarkers base raw.2 = .ok markers ∧
      loaded = ⟨mapping.push base markers new,
        (repeatsBy id [] markers).map (Event.repeatedMarker base)⟩ := by
  obtain ⟨base, accepted, goesOn⟩ := bind_eq_ok added
  by_cases known : base ∈ mapping.bases
  · rw [dif_pos known] at goesOn
    cases goesOn
  · rw [dif_neg known] at goesOn
    obtain ⟨markers, read, same⟩ := bind_eq_ok goesOn
    exact ⟨base, markers, known, accepted, read, (Except.ok.inj same).symm⟩

/-- Every base of a mapping that entries were added to was there before or was accepted. -/
theorem base_of_addEntries {mapping : Mapping} {raws : List (String × List String)}
    (added : addEntries mapping raws = .ok loaded) :
    ∀ base ∈ loaded.value.bases, base ∈ mapping.bases ∨ ∃ raw, parseBase raw = .ok base := by
  induction raws generalizing mapping loaded with
  | nil =>
    cases added
    exact fun base known => .inl known
  | cons raw rest ih =>
    obtain ⟨first, one, more⟩ := bind_eq_ok added
    obtain ⟨others, rest, same⟩ := bind_eq_ok more
    cases same
    obtain ⟨base, markers, new, accepted, _, rfl⟩ := addEntry_eq_ok one
    have bases : (mapping.push base markers new).bases = mapping.bases ++ [base] :=
      List.map_append
    intro other known
    rcases ih rest other known with before | later
    · rw [bases, List.mem_append, List.mem_singleton] at before
      rcases before with old | rfl
      · exact .inl old
      · exact .inr ⟨raw.1, accepted⟩
    · exact .inr later

/-- A base of a loaded mapping looks empty only if it is trimmed to a lone separator. -/
theorem looksEmpty_iff {draft : Draft} (done : ofDraft draft = .ok loaded) {base : TypeName}
    (listed : base ∈ loaded.value.bases) :
    TypeName.dropSeparator (Text.trim base.text.toList) = [] ↔
      Text.trim base.text.toList = [TypeName.separator] := by
  rcases base_of_addEntries done base listed with impossible | ⟨raw, accepted⟩
  · cases impossible
  · have notBlank := trim_ne_nil_of_parseBase accepted
    rw [TypeName.dropSeparator_eq_nil_iff]
    simp only [notBlank, false_or]

/-- A text that loads loads through a draft. -/
theorem exists_draft_of_load {text origin : String} (done : load text origin = .ok loaded) :
    ∃ draft, ofDraft draft = .ok loaded := by
  obtain ⟨document, _, converted⟩ := bind_eq_ok done
  obtain ⟨draft, _, built⟩ := bind_eq_ok converted
  exact ⟨draft, built⟩

/-- **Loading a loaded mapping again.**  A mapping that was loaded, from a draft or from a text, comes
back from its own draft as it is and without an event, provided that no base is trimmed to a lone
separator; if one is, the draft is refused for an empty base. -/
theorem reload_exact (loaded : Logged Mapping)
    (came : (∃ draft, ofDraft draft = .ok loaded) ∨ ∃ text origin, load text origin = .ok loaded) :
    ((∀ base ∈ loaded.value.bases, Text.trim base.text.toList ≠ [TypeName.separator]) →
        ofDraft loaded.value.draft = .ok ⟨loaded.value, []⟩) ∧
      ((∃ base ∈ loaded.value.bases, Text.trim base.text.toList = [TypeName.separator]) →
        ofDraft loaded.value.draft = .error .emptyBase) := by
  have fromDraft : ∃ draft, ofDraft draft = .ok loaded := by
    rcases came with given | ⟨text, origin, done⟩
    · exact given
    · exact exists_draft_of_load done
  obtain ⟨draft, done⟩ := fromDraft
  constructor
  · intro none
    refine ofDraft_draft loaded.value fun base listed looksEmpty => ?_
    exact none base listed ((looksEmpty_iff done listed).mp looksEmpty)
  · rintro ⟨base, listed, lone⟩
    exact ofDraft_draft_error loaded.value ⟨base, listed, (looksEmpty_iff done listed).mpr lone⟩

namespace Spellings

/-- The bases of a loaded mapping, and the number of its events. -/
def summary (loaded : Logged Mapping) : List String × Nat :=
  (loaded.value.bases.map TypeName.text, loaded.events.length)

/-- A leading separator, a marker in both spellings, and a base that begins with a wide blank. -/
def ordinary : Draft := Table.ofPairs
  [("\\App\\Base", ["App\\A", "\\App\\A", "App\\B"]), ("\u00a0x", [])]

/-- A leading separator before two segments that are wide blanks. -/
def blankSegments : Draft := Table.ofPairs [("\\\u00a0\\\u00a0", ["T"])]

end Spellings

open Spellings in
/-- The marker given twice is told of when the mapping is first loaded, and not when it is loaded
again. -/
theorem ordinary_reloads :
    ∃ loaded, ofDraft ordinary = .ok loaded ∧ loaded.events.length = 1 ∧
      ofDraft loaded.value.draft = .ok ⟨loaded.value, []⟩ := by
  obtain ⟨loaded, done, seen⟩ := @exists_ok_of_seen _ _ _ (ofDraft ordinary) summary
    (["App\\Base", "\u00a0x"], 1) (by decide +kernel)
  obtain ⟨bases, told⟩ := Prod.mk.inj seen
  have noneLone : ∀ name ∈ loaded.value.bases.map TypeName.text,
      Text.trim name.toList ≠ [TypeName.separator] := by
    rw [bases]
    decide
  refine ⟨loaded, done, told, (reload_exact loaded (.inl ⟨ordinary, done⟩)).1 fun base listed => ?_⟩
  exact noneLone base.text (List.mem_map_of_mem listed)

open Spellings in
/-- **A mapping need not load again**: the name is accepted behind its leading separator, and in normal
form it is taken for an empty one. -/
theorem reload_refused :
    ∃ loaded, ofDraft blankSegments = .ok loaded ∧
      ofDraft loaded.value.draft = .error .emptyBase := by
  obtain ⟨loaded, done, seen⟩ := @exists_ok_of_seen _ _ _ (ofDraft blankSegments) summary
    (["\u00a0\\\u00a0"], 0) (by decide +kernel)
  obtain ⟨bases, _⟩ := Prod.mk.inj seen
  have lone : ∃ name ∈ loaded.value.bases.map TypeName.text,
      TypeName.dropSeparator (Text.trim name.toList) = [] := by
    rw [bases]
    decide
  obtain ⟨name, listed, looksEmpty⟩ := lone
  obtain ⟨base, member, rfl⟩ := List.mem_map.mp listed
  exact ⟨loaded, done, ofDraft_draft_error loaded.value ⟨base, member, looksEmpty⟩⟩

end Loaded

end Mapping

end Mixin
