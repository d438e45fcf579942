/-
**What is written in a document, and what is loaded from it.**

Two members of a document may be for one name in two ways.  If their keys are different texts, the two
spellings of the name, both are seen when names are read, and the document is refused.  If their keys
are one text, only the last of them is left when the text has been read, so that the others are lost
without a word.

* `draft_of_members` — the draft of a document is the table of its members, so that documents are
  loaded as the members that are left (`Mapping.load_of_members`, `Hierarchy.load_of_members`).
* `Clash written name` — the name stands in both its spellings among the keys.
* **`written_exact`** — a document of well spelt names is refused exactly when names clash, and
  otherwise exactly what its last members write is loaded.
* `repeated_key_loses` — a document of which a part is lost.
-/

import Mixin.Proofs.Configuration.Shape
import Mixin.Proofs.Hierarchy.Construction
import Mixin.Proofs.Json.RepeatedKeys
import Mixin.Proofs.Mapping.Construction

namespace Mixin

/-! ### Documents -/

section Documents

variable {text origin : String} {members : List (String × Json)}

/-- A document without violations is its members that are left. -/
theorem readDocument_of_members {shape : Shape} (written : Json.parseRaw text = .ok (.obj members))
    (plain : ∀ member ∈ members, member.2.collapse = member.2)
    (fits : shape.violations (.obj (Table.ofPairs members).pairs) = []) :
    readDocument shape text origin = .ok (.obj (Table.ofPairs members).pairs) := by
  have parsed := Json.parse_of_members written plain
  rcases readDocument_cases shape text origin with ⟨fault, failed, _⟩ |
    ⟨value, done, ⟨some, _⟩ | ⟨_, read⟩⟩
  · rw [parsed] at failed
    cases failed
  · obtain rfl := Except.ok.inj (parsed.symm.trans done)
    exact absurd fits some
  · obtain rfl := Except.ok.inj (parsed.symm.trans done)
    exact read

/-- **The draft of a document** is the table of what its members write, for a conversion that goes by
the shape of the document and takes back what entries are written as. -/
theorem draft_of_members {ν : Type} {shape : Shape} {write : ν → Json}
    {convert : Json → Except ConfigurationError (Table String ν)} {written : List (String × ν)}
    (plain : ∀ value, (write value).collapse = write value)
    (follows : ∀ document, Follows (convert document) (shape.violations document))
    (takesBack : ∀ entries : List (String × ν),
      convert (.obj (entries.map (Prod.map id write))) = .ok (Table.ofPairs entries))
    (reads : Json.parseRaw text = .ok (.obj (written.map (Prod.map id write)))) :
    (readDocument shape text origin >>= convert) = .ok (Table.ofPairs written) := by
  have plainMembers : ∀ member ∈ written.map (Prod.map id write), member.2.collapse = member.2 := by
    intro member listed
    obtain ⟨entry, _, rfl⟩ := List.mem_map.mp listed
    exact plain entry.2
  have converts : convert (.obj (Table.ofPairs (written.map (Prod.map id write))).pairs) =
      .ok (Table.ofPairs written) := by
    rw [Table.pairs_ofPairs_map, takesBack, Table.ofPairs_pairs]
  have fits := (follows _).violations_eq_nil converts
  rw [readDocument_of_members reads plainMembers fits]
  exact converts

/-- The markers of a base, as they stand in a document. -/
def Mapping.listing (names : List String) : Json := .arr (names.map .str)

theorem Mapping.collapse_listing (names : List String) : (listing names).collapse = listing names := by
  unfold listing
  rw [Json.collapse_arr, List.map_map]
  refine congrArg _ (List.map_congr_left fun name _ => ?_)
  exact Json.collapse_str name

theorem Mapping.draftMarkers_listing (base : String) (names : List String) :
    draftMarkers base (names.map .str) = .ok names := by
  induction names with
  | nil => rfl
  | cons name rest ih => simp only [List.map_cons, draftMarkers, ih, bind, Except.bind]

theorem Mapping.draftOfJson_listing (entries : List (String × List String)) :
    draftOfJson (.obj (entries.map (Prod.map id listing))) = .ok (Table.ofPairs entries) := by
  have drafted : draftEntries (entries.map (Prod.map id listing)) = .ok entries := by
    induction entries with
    | nil => rfl
    | cons entry rest ih =>
      simp only [List.map_cons, Prod.map, listing, draftEntries, draftMarkers_listing, ih, id_eq, bind,
        Except.bind]
  rw [draftOfJson, drafted]
  rfl

/-- **A mapping document is loaded as the draft of the members that are left.** -/
theorem Mapping.load_of_members {written : List (String × List String)}
    (reads : Json.parseRaw text = .ok (.obj (written.map (Prod.map id listing)))) :
    load text origin = ofDraft (Table.ofPairs written) := by
  have drafted : (readDocument .mapping text origin >>= draftOfJson) = .ok (Table.ofPairs written) :=
    draft_of_members collapse_listing follows_draftOfJson draftOfJson_listing reads
  show (readDocument .mapping text origin >>= fun document => draftOfJson document >>= ofDraft) = _
  rw [← bind_assoc, drafted]
  rfl

theorem Hierarchy.draftOfJson_str (entries : List (String × String)) :
    draftOfJson (.obj (entries.map (Prod.map id .str))) = .ok (Table.ofPairs entries) := by
  have drafted : draftEntries (entries.map (Prod.map id .str)) = .ok entries := by
    induction entries with
    | nil => rfl
    | cons entry rest ih =>
      simp only [List.map_cons, Prod.map, draftEntries, ih, id_eq, bind, Except.bind]
  rw [draftOfJson, drafted]
  rfl

/-- **A hierarchy document is loaded as the draft of the members that are left.** -/
theorem Hierarchy.load_of_members {written : List (String × String)}
    (reads : Json.parseRaw text = .ok (.obj (written.map (Prod.map id .str)))) :
    load text origin = ofDraft (Table.ofPairs written) := by
  have drafted : (readDocument .hierarchy text origin >>= draftOfJson) = .ok (Table.ofPairs written) :=
    draft_of_members Json.collapse_str follows_draftOfJson draftOfJson_str reads
  show (readDocument .hierarchy text origin >>= fun document => draftOfJson document >>= ofDraft) = _
  rw [← bind_assoc, drafted]
  rfl

end Documents

/-! ### Names that clash -/

section Clashes

variable {ν : Type} {written : List (String × ν)} {name : TypeName}

/-- The name stands among the keys in two different spellings. -/
def Clash (written : List (String × ν)) (name : TypeName) : Prop :=
  ∃ left ∈ written, ∃ right ∈ written, left.1 ≠ right.1 ∧
    TypeName.parse left.1 = .ok name ∧ TypeName.parse right.1 = .ok name

/-- Where the names of entries are new behind those before them, no name clashes: both spellings would
be left, one behind the other. -/
theorem not_clash_of_throughout {Good : List (String × ν) → String × ν → Prop}
    (new : ∀ earlier raw, Good earlier raw → ∀ name, TypeName.parse raw.1 = .ok name →
      ∀ other ∈ earlier, TypeName.parse other.1 ≠ .ok name)
    (good : Throughout Good (Table.ofPairs written).pairs) : ¬ Clash written name := by
  rintro ⟨left, leftWritten, right, rightWritten, different, leftSpelt, rightSpelt⟩
  obtain ⟨leftValue, leftLast⟩ := exists_lastFor (List.mem_map_of_mem leftWritten)
  obtain ⟨rightValue, rightLast⟩ := exists_lastFor (List.mem_map_of_mem rightWritten)
  have apart : (left.1, leftValue) ≠ (right.1, rightValue) := fun same =>
    different (Prod.mk.inj same).1
  rcases good_behind good (Table.mem_ofPairs_iff.mpr leftLast) (Table.mem_ofPairs_iff.mpr rightLast)
    apart with ⟨earlier, before, behind⟩ | ⟨earlier, before, behind⟩
  · exact new earlier _ behind name rightSpelt _ before leftSpelt
  · exact new earlier _ behind name leftSpelt _ before rightSpelt

/-- Two entries that are left for one name clash, since their keys are different texts. -/
theorem clash_of_repeated {earlier later : List (String × ν)} {raw other : String × ν}
    (split : (Table.ofPairs written).pairs = earlier ++ raw :: later)
    (spelt : TypeName.parse raw.1 = .ok name) (member : other ∈ earlier)
    (same : TypeName.parse other.1 = .ok name) : Clash written name := by
  have left : other ∈ written := (Table.mem_ofPairs_iff.mp (by simp [split, member])).mem
  have right : raw ∈ written := (Table.mem_ofPairs_iff.mp (by simp [split])).mem
  refine ⟨other, left, raw, right, fun equal => ?_, same, spelt⟩
  have distinct := (Table.ofPairs written).distinct
  rw [split, List.map_append, List.nodup_append] at distinct
  exact distinct.2.2 _ (List.mem_map_of_mem member) raw.1 (by simp) equal

/-- **Entries of well spelt names are built, unless names clash.**  Here an entry has a flaw only if its
name clashes, and the error for that names it. -/
theorem clash_or_built {σ ε : Type} {step : σ → String × ν → Except ε σ} {start : σ}
    {Good : List (String × ν) → String × ν → Prop} {Flaw : List (String × ν) → String × ν → ε → Prop}
    {Built : List (String × ν) → σ → Prop} (admission : Admission step start Good Flaw Built)
    (new : ∀ earlier raw, Good earlier raw → ∀ name, TypeName.parse raw.1 = .ok name →
      ∀ other ∈ earlier, TypeName.parse other.1 ≠ .ok name)
    {repeated : TypeName → ε}
    (onlyClash : ∀ earlier raw later error, (Table.ofPairs written).pairs = earlier ++ raw :: later →
      Flaw earlier raw error → ∃ name, Clash written name ∧ error = repeated name) :
    (∃ name, Clash written name ∧
        (Table.ofPairs written).pairs.foldlM step start = .error (repeated name)) ∨
      (∀ name, ¬ Clash written name) ∧ ∃ state,
        (Table.ofPairs written).pairs.foldlM step start = .ok state ∧
          Built (Table.ofPairs written).pairs state := by
  rcases admission.throughout_or_first (Table.ofPairs written).pairs with good |
    ⟨earlier, raw, later, error, split, good, flaw⟩
  · exact .inr ⟨fun name => not_clash_of_throughout new good, admission.built_of_throughout good⟩
  · obtain ⟨name, clash, rfl⟩ := onlyClash earlier raw later error split flaw
    exact .inl ⟨name, clash, admission.error_iff.mpr ⟨earlier, raw, later, split, good, flaw⟩⟩

end Clashes

/-! ### Mappings -/

section Mappings

namespace Mapping

variable {written : List (String × List String)}

/-- The base of an entry is accepted, and its markers are well spelt. -/
structure WellSpelt (entry : String × List String) : Prop where
  base : ∃ base, parseBase entry.1 = .ok base
  markers : ∀ marker ∈ entry.2, ∃ name, TypeName.parse marker = .ok name

/-- An accepted base does not look empty and is well spelt. -/
theorem named_of_parseBase {text : String} {base : TypeName} (accepted : parseBase text = .ok base) :
    TypeName.dropSeparator (Text.trim text.toList) ≠ [] ∧ TypeName.parse text = .ok base := by
  by_cases named : TypeName.dropSeparator (Text.trim text.toList) = []
  · unfold parseBase at accepted
    rw [if_pos (by simpa using named)] at accepted
    cases accepted
  · rw [parseBase_of_named named] at accepted
    refine ⟨named, ?_⟩
    cases read : TypeName.parse text with
    | error error =>
      rw [read] at accepted
      cases accepted
    | ok found =>
      rw [read] at accepted
      exact congrArg _ (Except.ok.inj accepted)

/-- **Where all is well spelt, only a clash can be wrong.** -/
theorem clash_of_flaw (wellSpelt : ∀ entry ∈ written, WellSpelt entry)
    {earlier later : List (String × List String)} {raw : String × List String}
    {error : ConfigurationError}
    (split : (Table.ofPairs written).pairs = earlier ++ raw :: later)
    (flaw : Flaw earlier raw error) : ∃ base, Clash written base ∧ error = .duplicateBase base := by
  have isWritten : raw ∈ written := (Table.mem_ofPairs_iff.mp (by simp [split])).mem
  obtain ⟨⟨base, accepted⟩, markers⟩ := wellSpelt raw isWritten
  obtain ⟨named, spelt⟩ := named_of_parseBase accepted
  cases flaw with
  | unnamed looksEmpty => exact absurd looksEmpty named
  | misspelt _ bad =>
    rw [spelt] at bad
    cases bad
  | @repeated name other _ sameBase member again =>
    exact ⟨name, clash_of_repeated split sameBase member again, rfl⟩
  | @marker _ before after marker _ _ _ _ listed _ bad =>
    obtain ⟨name, fine⟩ := markers marker (by simp [listed])
    rw [fine] at bad
    cases bad

/-- What a mapping document of well spelt names gives. -/
theorem load_wellSpelt {text : String} (origin : String)
    (reads : Json.parseRaw text = .ok (.obj (written.map (Prod.map id listing))))
    (wellSpelt : ∀ entry ∈ written, WellSpelt entry) :
    (∃ base, Clash written base ∧ load text origin = .error (.duplicateBase base)) ∨
      (∀ base, ¬ Clash written base) ∧ ∃ loaded, load text origin = .ok loaded ∧
        ∃ read, Built (Table.ofPairs written).pairs read loaded := by
  rw [load_of_members reads, ofDraft_eq_foldlM]
  exact clash_or_built admission (fun earlier raw good => good.new)
    fun earlier raw later error split flaw => clash_of_flaw wellSpelt split flaw

end Mapping

end Mappings

/-! ### Hierarchies -/

section Hierarchies

namespace Hierarchy

variable {written : List (String × String)}

/-- Both names of an entry are well spelt. -/
structure WellSpelt (entry : String × String) : Prop where
  name : ∃ name, TypeName.parse entry.1 = .ok name
  parent : ∃ parent, TypeName.parse entry.2 = .ok parent

/-- **Where all is well spelt, only a clash can be wrong.** -/
theorem clash_of_flaw (wellSpelt : ∀ entry ∈ written, WellSpelt entry)
    {earlier later : List (String × String)} {raw : String × String} {error : ConfigurationError}
    (split : (Table.ofPairs written).pairs = earlier ++ raw :: later)
    (flaw : Flaw earlier raw error) : ∃ name, Clash written name ∧ error = .duplicateClass name := by
  have isWritten : raw ∈ written := (Table.mem_ofPairs_iff.mp (by simp [split])).mem
  obtain ⟨⟨name, spelt⟩, ⟨parent, above⟩⟩ := wellSpelt raw isWritten
  cases flaw with
  | misspelt bad =>
    rw [spelt] at bad
    cases bad
  | misspeltParent _ bad =>
    rw [above] at bad
    cases bad
  | @repeated name _ other sameName _ member again =>
    exact ⟨name, clash_of_repeated split sameName member again, rfl⟩

/-- What a hierarchy document of well spelt names gives. -/
theorem load_wellSpelt {text : String} (origin : String)
    (reads : Json.parseRaw text = .ok (.obj (written.map (Prod.map id .str))))
    (wellSpelt : ∀ entry ∈ written, WellSpelt entry) :
    (∃ name, Clash written name ∧ load text origin = .error (.duplicateClass name)) ∨
      (∀ name, ¬ Clash written name) ∧ ∃ loaded, load text origin = .ok loaded ∧
        List.Forall₂ Reads (Table.ofPairs written).pairs loaded.parents.pairs := by
  rw [load_of_members reads, ofDraft_eq_foldlM]
  exact clash_or_built admission (fun earlier raw good => good.new)
    fun earlier raw later error split flaw => clash_of_flaw wellSpelt split flaw

end Hierarchy

end Hierarchies

/-- **What is written in a document, and what is loaded from it.**  In a mapping document, let every
base be accepted and every marker be well spelt; in a hierarchy document, every class and every parent.

* If a name stands among the keys in both its spellings, loading ends in the error for a repeated base
  or class, and names one that does.
* Otherwise loading succeeds, and what is loaded is exactly what the last members of their keys write;
  a member is lost when a later one has the same text as its key. -/
theorem written_exact (text origin : String) :
    (∀ written : List (String × List String),
      Json.parseRaw text = .ok (.obj (written.map (Prod.map id Mapping.listing))) →
      (∀ entry ∈ written, Mapping.WellSpelt entry) →
      ((∃ base, Clash written base) →
        ∃ base, Clash written base ∧ Mapping.load text origin = .error (.duplicateBase base)) ∧
      ((¬ ∃ base, Clash written base) →
        ∃ loaded, Mapping.load text origin = .ok loaded ∧ ∀ base marker,
          (∃ markers, loaded.value.markers? base = some markers ∧ marker ∈ markers) ↔
            ∃ entry, LastFor written entry ∧ TypeName.parse entry.1 = .ok base ∧
              ∃ listed ∈ entry.2, TypeName.parse listed = .ok marker)) ∧
    (∀ written : List (String × String),
      Json.parseRaw text = .ok (.obj (written.map (Prod.map id Json.str))) →
      (∀ entry ∈ written, Hierarchy.WellSpelt entry) →
      ((∃ name, Clash written name) →
        ∃ name, Clash written name ∧ Hierarchy.load text origin = .error (.duplicateClass name)) ∧
      ((¬ ∃ name, Clash written name) →
        ∃ loaded, Hierarchy.load text origin = .ok loaded ∧ ∀ name parent,
          loaded.parentOf name = some parent ↔
            ∃ entry, LastFor written entry ∧ TypeName.parse entry.1 = .ok name ∧
              TypeName.parse entry.2 = .ok parent)) := by
  constructor
  · intro written reads wellSpelt
    rcases Mapping.load_wellSpelt origin reads wellSpelt with ⟨base, clash, failed⟩ |
      ⟨noClash, loaded, done, read, built⟩
    · exact ⟨fun _ => ⟨base, clash, failed⟩, fun none => absurd ⟨base, clash⟩ none⟩
    · refine ⟨fun ⟨base, clash⟩ => absurd clash (noClash base), fun _ => ⟨loaded, done, ?_⟩⟩
      intro base marker
      rw [built.mem_markers_iff]
      simp only [Table.mem_ofPairs_iff]
  · intro written reads wellSpelt
    rcases Hierarchy.load_wellSpelt origin reads wellSpelt with ⟨name, clash, failed⟩ |
      ⟨noClash, loaded, done, built⟩
    · exact ⟨fun _ => ⟨name, clash, failed⟩, fun none => absurd ⟨name, clash⟩ none⟩
    · refine ⟨fun ⟨name, clash⟩ => absurd clash (noClash name), fun _ => ⟨loaded, done, ?_⟩⟩
      intro name parent
      rw [Hierarchy.parentOf_iff built]
      simp only [Table.mem_ofPairs_iff]

namespace Documents

/-- The names in the documents below. -/
def model : TypeName := ⟨"Model", by decide⟩
def root : TypeName := ⟨"Root", by decide⟩
def trunk : TypeName := ⟨"Trunk", by decide⟩
def stamp : TypeName := ⟨"Stamp", by decide⟩
def track : TypeName := ⟨"Track", by decide⟩

/-- A base in both its spellings. -/
def bothSpellings : String := "\x7b\"Model\":[\"Stamp\"],\"\\\\Model\":[\"Track\"]\x7d"

/-- A base with two lists of markers. -/
def twoLists : String := "\x7b\"Model\":[\"Stamp\"],\"Model\":[\"Track\"]\x7d"

/-- A class with two parents, its name written once with an escape. -/
def twoParents : String := "\x7b\"Model\":\"Root\",\"\\u004dodel\":\"Trunk\"\x7d"

/-- The members of the first two documents, by the second key. -/
def lists (second : String) : List (String × List String) := [("Model", ["Stamp"]), (second, ["Track"])]

/-- The members of the last document. -/
def parents : List (String × String) := [("Model", "Root"), ("Model", "Trunk")]

theorem twoParents_reads :
    Json.parseRaw twoParents = .ok (.obj (parents.map (Prod.map id Json.str))) := rfl

theorem wellSpelt_lists {second : String} (accepted : Mapping.parseBase second = .ok model) :
    ∀ entry ∈ lists second, Mapping.WellSpelt entry := by
  have stamped : Mapping.WellSpelt ("Model", ["Stamp"]) := ⟨⟨model, rfl⟩, by simpa using ⟨stamp, rfl⟩⟩
  have tracked : Mapping.WellSpelt (second, ["Track"]) :=
    ⟨⟨model, accepted⟩, by simpa using ⟨track, rfl⟩⟩
  simpa [lists] using ⟨stamped, tracked⟩

theorem wellSpelt_parents : ∀ entry ∈ parents, Hierarchy.WellSpelt entry := by
  have first : Hierarchy.WellSpelt ("Model", "Root") := ⟨⟨model, rfl⟩, ⟨root, rfl⟩⟩
  have second : Hierarchy.WellSpelt ("Model", "Trunk") := ⟨⟨model, rfl⟩, ⟨trunk, rfl⟩⟩
  simpa [parents] using ⟨first, second⟩

end Documents

open Documents in
/-- A mapping with a base in both spellings is refused; a hierarchy with a class written twice in one
spelling is loaded, with the last parent. -/
theorem spellings_in_documents :
    (∃ base, Mapping.load bothSpellings "inline" = .error (.duplicateBase base)) ∧
      ∃ loaded, Hierarchy.load twoParents "inline" = .ok loaded ∧
        loaded.parentOf model = some trunk := by
  constructor
  · have reads : Json.parseRaw bothSpellings =
        .ok (.obj ((lists "\\Model").map (Prod.map id Mapping.listing))) := rfl
    have clash : Clash (lists "\\Model") model :=
      ⟨_, List.mem_cons_self, _, List.mem_cons_of_mem _ List.mem_cons_self, by decide, rfl, rfl⟩
    obtain ⟨base, _, failed⟩ :=
      ((written_exact bothSpellings "inline").1 _ reads (wellSpelt_lists rfl)).1 ⟨model, clash⟩
    exact ⟨base, failed⟩
  · have noClash : ¬ ∃ name, Clash parents name := by
      rintro ⟨name, left, leftWritten, right, rightWritten, different, _⟩
      have oneKey : ∀ entry ∈ parents, entry.1 = "Model" := by decide
      exact different ((oneKey left leftWritten).trans (oneKey right rightWritten).symm)
    obtain ⟨loaded, done, isParent⟩ :=
      ((written_exact twoParents "inline").2 _ twoParents_reads wellSpelt_parents).2 noClash
    exact ⟨loaded, done, (isParent model trunk).mpr
      ⟨("Model", "Trunk"), ⟨[("Model", "Root")], [], rfl, List.not_mem_nil⟩, rfl, rfl⟩⟩

open Documents in
/-- **A member can be lost without a word.**  A document of well spelt names writes two lists of markers
for one base; it is loaded, and the marker of the first list is not there.  So it is with two parents
of one class. -/
theorem repeated_key_loses :
    (Json.parseRaw twoLists =
        .ok (.obj ((lists "Model").map (Prod.map id Mapping.listing))) ∧
      (∀ entry ∈ lists "Model", Mapping.WellSpelt entry) ∧
      ∃ loaded, Mapping.load twoLists "inline" = .ok loaded ∧
        ¬ ∃ markers, loaded.value.markers? model = some markers ∧ stamp ∈ markers) ∧
    (Json.parseRaw twoParents = .ok (.obj (parents.map (Prod.map id Json.str))) ∧
      (∀ entry ∈ parents, Hierarchy.WellSpelt entry) ∧
      ∃ loaded, Hierarchy.load twoParents "inline" = .ok loaded ∧
        loaded.parentOf model ≠ some root) := by
  refine ⟨⟨rfl, wellSpelt_lists rfl, ?_⟩, twoParents_reads, wellSpelt_parents, ?_⟩
  · obtain ⟨loaded, done, found⟩ := @exists_ok_of_seen _ _ _ (Mapping.load twoLists "inline")
      (fun loaded => loaded.value.markers? model) (some [track]) (by decide +kernel)
    refine ⟨loaded, done, ?_⟩
    rintro ⟨markers, same, member⟩
    obtain rfl := Option.some.inj (found.symm.trans same)
    exact absurd member (by decide)
  · obtain ⟨loaded, done, found⟩ := @exists_ok_of_seen _ _ _ (Hierarchy.load twoParents "inline")
      (fun loaded => loaded.parentOf model) (some trunk) (by decide +kernel)
    refine ⟨loaded, done, ?_⟩
    rw [found]
    decide

end Mixin
