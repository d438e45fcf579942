/-
**Which drafts make a mapping, and which mapping they make.**

A draft is built into a mapping entry by entry.  Whether an entry is accepted depends on what it says
and on the entries written before it (`Good`), and so does the error if it is not (`Flaw`): the checks
are made in a fixed order, and the first that fails is the one reported.

* `Built raws read loaded` — what has been built when the entries `raws` are done: `read` are their
  names, in normal form, with repeated markers still in them.
* `admission` — one entry more: a good one is added, a flawed one is the error.
* `length_of_built` — between the markers kept and the events told no marker is lost.
* **`ofDraft_exact`** — when a draft is accepted, what it becomes, and which error it gives otherwise.
-/

import Mixin.Mapping.Load
import Mixin.Proofs.Computation
import Mixin.Proofs.Configuration.Admission

namespace Mixin

/-! ### First occurrences and repeats -/

section Repeats

variable {α : Type} [DecidableEq α]

/-- The items that stand at an earlier place too, in order. -/
def repeats (items : List α) : List α :=
  (items.zipIdx.filter fun item => decide (item.1 ∈ items.take item.2)).map Prod.fst

theorem freshBy_id (items : List α) : freshBy id [] items = items.eraseDups := by
  have keys := map_freshBy id [] items
  have all : (items.filter fun item => decide (item ∉ ([] : List α))) = items :=
    List.filter_eq_self.mpr fun item _ => by simp
  rwa [List.map_id, List.map_id, all] at keys

/-- What is a repeat with some items seen before: it is among these or stands at an earlier place. -/
theorem repeatsBy_id (seen items : List α) :
    repeatsBy id seen items =
      (items.zipIdx.filter fun item => decide (item.1 ∈ seen ++ items.take item.2)).map Prod.fst := by
  induction items generalizing seen with
  | nil => rfl
  | cons first rest ih =>
    -- Behind the first item, the places are one higher and the first item has been passed.
    have behind : ∀ passed : List α, (∀ item, item ∈ passed ↔ item = first ∨ item ∈ seen) →
        (((rest.zipIdx 1).filter fun item =>
          decide (item.1 ∈ seen ++ (first :: rest).take item.2)).map Prod.fst) =
          repeatsBy id passed rest := by
      intro passed same
      rw [ih, List.zipIdx_succ, List.filter_map, List.map_map]
      refine congrArg _ (List.filter_congr fun item _ => ?_)
      simp only [Function.comp_apply, List.take_succ_cons, List.mem_append, List.mem_cons, same]
      exact decide_eq_decide.mpr ⟨fun found => by tauto, fun found => by tauto⟩
    rw [List.zipIdx_cons, repeatsBy, id_eq]
    by_cases old : first ∈ seen
    · have passed : ∀ item, item ∈ seen ↔ item = first ∨ item ∈ seen :=
        fun item => ⟨.inr, fun found => found.elim (fun here => here ▸ old) id⟩
      rw [if_pos old, List.filter_cons_of_pos (by simpa using old), List.map_cons, behind seen passed]
    · rw [if_neg old, List.filter_cons_of_neg (by simpa using old),
        behind (first :: seen) fun item => List.mem_cons]

theorem repeatsBy_nil (items : List α) : repeatsBy id [] items = repeats items := by
  rw [repeatsBy_id]
  rfl

end Repeats

/-- Whether an event tells of a marker dropped under a base. -/
def Event.isRepeatOf (base : TypeName) : Event → Bool
  | .repeatedMarker other _ => decide (other = base)
  | _ => false

namespace Mapping

/-! ### Good entries and flaws -/

section Entries

/-- **An entry is good** behind the entries written earlier: its base does not look empty, is well
spelt and is not the base of an earlier entry, and its markers are well spelt. -/
structure Good (earlier : List (String × List String)) (raw : String × List String) : Prop where
  named : TypeName.dropSeparator (Text.trim raw.1.toList) ≠ []
  spelt : ∃ base, TypeName.parse raw.1 = .ok base
  new : ∀ base, TypeName.parse raw.1 = .ok base →
    ∀ other ∈ earlier, TypeName.parse other.1 ≠ .ok base
  markers : ∀ marker ∈ raw.2, ∃ name, TypeName.parse marker = .ok name

/-- **What is wrong with an entry** behind the entries written earlier.  A flaw counts only if none of
the flaws above it is there, and of several misspelt markers only the first. -/
inductive Flaw (earlier : List (String × List String)) (raw : String × List String) :
    ConfigurationError → Prop
  | unnamed : TypeName.dropSeparator (Text.trim raw.1.toList) = [] → Flaw earlier raw .emptyBase
  | misspelt {error : InvalidName} : TypeName.dropSeparator (Text.trim raw.1.toList) ≠ [] →
      TypeName.parse raw.1 = .error error → Flaw earlier raw (.invalidBase error)
  | repeated {base : TypeName} {other : String × List String} :
      TypeName.dropSeparator (Text.trim raw.1.toList) ≠ [] → TypeName.parse raw.1 = .ok base →
      other ∈ earlier → TypeName.parse other.1 = .ok base → Flaw earlier raw (.duplicateBase base)
  | marker {base : TypeName} {before after : List String} {marker : String} {error : InvalidName} :
      TypeName.dropSeparator (Text.trim raw.1.toList) ≠ [] → TypeName.parse raw.1 = .ok base →
      (∀ other ∈ earlier, TypeName.parse other.1 ≠ .ok base) →
      raw.2 = before ++ marker :: after →
      (∀ text ∈ before, ∃ name, TypeName.parse text = .ok name) →
      TypeName.parse marker = .error error → Flaw earlier raw (.invalidMarker base error)

/-- The names of an entry, in normal form. -/
structure Reads (raw : String × List String) (entry : TypeName × List TypeName) : Prop where
  base : TypeName.parse raw.1 = .ok entry.1
  markers : List.Forall₂ (fun text name => TypeName.parse text = .ok name) raw.2 entry.2

variable {earlier : List (String × List String)} {raw : String × List String}

/-- Texts are all well spelt, or there is a first one that is not. -/
theorem spelt_or_misspelt (texts : List String) :
    (∀ text ∈ texts, ∃ name, TypeName.parse text = .ok name) ∨
      ∃ before marker after error, texts = before ++ marker :: after ∧
        (∀ text ∈ before, ∃ name, TypeName.parse text = .ok name) ∧
        TypeName.parse marker = .error error := by
  induction texts with
  | nil => exact .inl nofun
  | cons text rest ih =>
    cases read : TypeName.parse text with
    | error error => exact .inr ⟨[], text, rest, error, rfl, nofun, read⟩
    | ok name =>
      rcases ih with spelt | ⟨before, marker, after, error, rfl, spelt, misspelt⟩
      · exact .inl (List.forall_mem_cons.mpr ⟨⟨name, read⟩, spelt⟩)
      · exact .inr ⟨text :: before, marker, after, error, rfl,
          List.forall_mem_cons.mpr ⟨⟨name, read⟩, spelt⟩, misspelt⟩

/-- **An entry is good or flawed.** -/
theorem good_or_flaw (earlier : List (String × List String)) (raw : String × List String) :
    Good earlier raw ∨ ∃ error, Flaw earlier raw error := by
  by_cases named : TypeName.dropSeparator (Text.trim raw.1.toList) = []
  · exact .inr ⟨_, .unnamed named⟩
  cases read : TypeName.parse raw.1 with
  | error error => exact .inr ⟨_, .misspelt named read⟩
  | ok base =>
    by_cases known : ∃ other ∈ earlier, TypeName.parse other.1 = .ok base
    · obtain ⟨other, member, same⟩ := known
      exact .inr ⟨_, .repeated named read member same⟩
    have new : ∀ other ∈ earlier, TypeName.parse other.1 ≠ .ok base :=
      fun other member same => known ⟨other, member, same⟩
    rcases spelt_or_misspelt raw.2 with spelt | ⟨_, _, _, _, split, before, misspelt⟩
    · refine .inl ⟨named, ⟨base, read⟩, fun other same => ?_, spelt⟩
      obtain rfl := Except.ok.inj (read.symm.trans same)
      exact new
    · exact .inr ⟨_, .marker named read new split before misspelt⟩

/-- A flawed entry is not good. -/
theorem Flaw.not_good {error : ConfigurationError} (flaw : Flaw earlier raw error) :
    ¬ Good earlier raw := by
  intro good
  obtain ⟨base, spelt⟩ := good.spelt
  cases flaw with
  | unnamed looksEmpty => exact good.named looksEmpty
  | misspelt _ bad =>
    rw [spelt] at bad
    cases bad
  | @repeated other _ _ sameBase member same => exact good.new other sameBase _ member same
  | @marker _ before after marker _ _ _ _ split _ bad =>
    obtain ⟨name, fine⟩ := good.markers marker (by simp [split])
    rw [fine] at bad
    cases bad

end Entries

/-! ### Adding entries -/

section Adding

variable {raws : List (String × List String)} {raw : String × List String}
  {read : List (TypeName × List TypeName)} {loaded : Logged Mapping}

theorem parseBase_of_named {text : String}
    (named : TypeName.dropSeparator (Text.trim text.toList) ≠ []) :
    parseBase text = (TypeName.parse text).mapError .invalidBase := by
  unfold parseBase
  rw [if_neg (by simpa using named)]
  cases TypeName.parse text <;> rfl

/-- Markers that are well spelt are read one by one. -/
theorem parseMarkers_of_spelt (base : TypeName) {texts : List String} {names : List TypeName}
    (spelt : List.Forall₂ (fun text name => TypeName.parse text = .ok name) texts names) :
    parseMarkers base texts = .ok names := by
  induction spelt with
  | nil => rfl
  | cons read _ ih =>
    rw [parseMarkers, read]
    simp only [ih, bind, Except.bind]

/-- The first marker that is misspelt is the error. -/
theorem parseMarkers_of_misspelt (base : TypeName) {before after : List String} {marker : String}
    {error : InvalidName} (spelt : ∀ text ∈ before, ∃ name, TypeName.parse text = .ok name)
    (misspelt : TypeName.parse marker = .error error) :
    parseMarkers base (before ++ marker :: after) = .error (.invalidMarker base error) := by
  induction before with
  | nil => rw [List.nil_append, parseMarkers, misspelt]
  | cons text rest ih =>
    obtain ⟨⟨name, read⟩, others⟩ := List.forall_mem_cons.mp spelt
    rw [List.cons_append, parseMarkers, read]
    simp only [ih others, bind, Except.bind]

/-- Adds one written entry behind others; the events go on from theirs. -/
def logEntry (logged : Logged Mapping) (raw : String × List String) :
    Except ConfigurationError (Logged Mapping) := do
  let next ← logged.value.addEntry raw
  .ok ⟨next.value, logged.events ++ next.events⟩

/-- Adding entries to what has been built before, its events first. -/
theorem foldlM_logEntry (logged : Logged Mapping) (raws : List (String × List String)) :
    raws.foldlM logEntry logged = (addEntries logged.value raws).map fun others =>
      ⟨others.value, logged.events ++ others.events⟩ := by
  induction raws generalizing logged with
  | nil => simp only [List.foldlM_nil, addEntries, Except.map, List.append_nil, pure, Except.pure]
  | cons raw rest ih =>
    simp only [List.foldlM_cons, logEntry, addEntries, bind, Except.bind]
    cases logged.value.addEntry raw with
    | error error => rfl
    | ok first =>
      dsimp only
      rw [ih]
      cases addEntries first.value rest with
      | error error => rfl
      | ok others => simp only [Except.map, List.append_assoc]

/-- **A draft is built entry by entry.** -/
theorem ofDraft_eq_foldlM (draft : Draft) :
    ofDraft draft = draft.pairs.foldlM logEntry ⟨empty, []⟩ := by
  rw [foldlM_logEntry]
  unfold ofDraft
  cases addEntries empty draft.pairs <;> rfl

/-- What has been built when some entries are done: the entries in order, each with its markers at
their first occurrences, and an event for every other occurrence. -/
structure Built (raws : List (String × List String)) (read : List (TypeName × List TypeName))
    (loaded : Logged Mapping) : Prop where
  reads : List.Forall₂ Reads raws read
  entries : loaded.value.entries = read.map fun entry => (entry.1, entry.2.eraseDups)
  events : loaded.events =
    read.flatMap fun entry => (repeats entry.2).map (Event.repeatedMarker entry.1)

theorem Built.bases (built : Built raws read loaded) :
    loaded.value.bases = read.map Prod.fst := by
  show loaded.value.entries.map Prod.fst = _
  rw [built.entries, List.map_map]
  rfl

/-- The bases built so far are those that earlier entries are written for. -/
theorem Built.mem_bases_iff (built : Built raws read loaded) {base : TypeName} :
    base ∈ loaded.value.bases ↔ ∃ other ∈ raws, TypeName.parse other.1 = .ok base := by
  rw [built.bases]
  constructor
  · intro known
    obtain ⟨entry, member, rfl⟩ := List.mem_map.mp known
    obtain ⟨raw, written, reads⟩ := exists_left_of_mem built.reads member
    exact ⟨raw, written, reads.base⟩
  · rintro ⟨other, written, same⟩
    obtain ⟨entry, member, reads⟩ := exists_right_of_mem built.reads written
    obtain rfl := Except.ok.inj (reads.base.symm.trans same)
    exact List.mem_map_of_mem member

theorem Built.markers?_eq (built : Built raws read loaded) {entry : TypeName × List TypeName}
    (member : entry ∈ read) : loaded.value.markers? entry.1 = some entry.2.eraseDups := by
  refine Table.get?_eq_some_iff.mpr ?_
  show (entry.1, entry.2.eraseDups) ∈ loaded.value.entries
  rw [built.entries]
  exact List.mem_map.mpr ⟨entry, member, rfl⟩

/-- A marker is under a base when an entry for the base lists it. -/
theorem Built.mem_markers_iff (built : Built raws read loaded) {base marker : TypeName} :
    (∃ markers, loaded.value.markers? base = some markers ∧ marker ∈ markers) ↔
      ∃ raw ∈ raws, TypeName.parse raw.1 = .ok base ∧
        ∃ listed ∈ raw.2, TypeName.parse listed = .ok marker := by
  constructor
  · rintro ⟨markers, found, kept⟩
    have entered : (base, markers) ∈ loaded.value.entries := Table.get?_eq_some_iff.mp found
    rw [built.entries] at entered
    obtain ⟨entry, member, same⟩ := List.mem_map.mp entered
    obtain ⟨rfl, rfl⟩ := Prod.mk.inj same
    obtain ⟨raw, written, reads⟩ := exists_left_of_mem built.reads member
    obtain ⟨listed, inRaw, spells⟩ := exists_left_of_mem reads.markers (List.mem_eraseDups.mp kept)
    exact ⟨raw, written, reads.base, listed, inRaw, spells⟩
  · rintro ⟨raw, written, spelt, listed, inRaw, spells⟩
    obtain ⟨entry, member, reads⟩ := exists_right_of_mem built.reads written
    obtain rfl := Except.ok.inj (reads.base.symm.trans spelt)
    obtain ⟨name, inEntry, same⟩ := exists_right_of_mem reads.markers inRaw
    obtain rfl := Except.ok.inj (same.symm.trans spells)
    exact ⟨_, built.markers?_eq member, List.mem_eraseDups.mpr inEntry⟩

/-- **A good entry is added**, with an event for each of its repeated markers. -/
theorem Built.takes (built : Built raws read loaded) (good : Good raws raw) :
    ∃ next, logEntry loaded raw = .ok next ∧ ∃ entry, Built (raws ++ [raw]) (read ++ [entry]) next := by
  obtain ⟨base, spelt⟩ := good.spelt
  obtain ⟨names, markers⟩ := exists_forall₂ good.markers
  have new : base ∉ loaded.value.bases := by
    intro known
    obtain ⟨other, written, same⟩ := built.mem_bases_iff.mp known
    exact good.new base spelt other written same
  have accepted : parseBase raw.1 = .ok base := by
    rw [parseBase_of_named good.named, spelt]
    rfl
  have added : logEntry loaded raw = .ok ⟨loaded.value.push base names new,
      loaded.events ++ (repeatsBy id [] names).map (Event.repeatedMarker base)⟩ := by
    unfold logEntry addEntry
    simp only [accepted, parseMarkers_of_spelt base markers, new, dite_false, bind, Except.bind]
  refine ⟨_, added, (base, names), ?_, ?_, ?_⟩
  · exact List.rel_append built.reads (.cons ⟨spelt, markers⟩ .nil)
  · show loaded.value.entries ++ [(base, freshBy id [] names)] = _
    rw [built.entries, freshBy_id, List.map_append]
    rfl
  · dsimp only
    rw [built.events, repeatsBy_nil, List.flatMap_append, List.flatMap_singleton]

/-- **A flawed entry is the error.** -/
theorem Built.refuses (built : Built raws read loaded) {error : ConfigurationError}
    (flaw : Flaw raws raw error) : logEntry loaded raw = .error error := by
  unfold logEntry addEntry
  cases flaw with
  | unnamed looksEmpty =>
    have refused : parseBase raw.1 = .error .emptyBase := by
      unfold parseBase
      rw [if_pos (by simpa using looksEmpty)]
    simp only [refused, bind, Except.bind]
  | misspelt named bad =>
    simp only [parseBase_of_named named, bad, Except.mapError, bind, Except.bind]
  | @repeated base other named spelt written same =>
    have known : base ∈ loaded.value.bases := built.mem_bases_iff.mpr ⟨other, written, same⟩
    simp only [parseBase_of_named named, spelt, Except.mapError, known, dite_true, bind, Except.bind]
  | @marker base before after marker error named spelt unknown split fine bad =>
    have new : base ∉ loaded.value.bases := fun known => by
      obtain ⟨other, written, same⟩ := built.mem_bases_iff.mp known
      exact unknown other written same
    have refused : parseMarkers base raw.2 = .error (.invalidMarker base error) := by
      rw [split]
      exact parseMarkers_of_misspelt base fine bad
    simp only [parseBase_of_named named, spelt, Except.mapError, new, dite_false, refused, bind,
      Except.bind]

/-- **Adding entries admits the good ones and stops at the first flaw.** -/
theorem admission : Admission logEntry ⟨empty, []⟩ Good Flaw
    (fun raws loaded => ∃ read, Built raws read loaded) where
  decided := good_or_flaw
  begins := ⟨[], .nil, rfl, rfl⟩
  takes := by
    rintro earlier state raw ⟨read, built⟩ good
    obtain ⟨next, taken, entry, grown⟩ := built.takes good
    exact ⟨next, taken, _, grown⟩
  refuses := by
    rintro earlier state raw error ⟨read, built⟩ flaw
    exact built.refuses flaw

end Adding

/-! ### Counting -/

section Counting

/-- Items kept and repeats together are all items. -/
theorem length_eraseDups_add_length_repeats {α : Type} [DecidableEq α] (items : List α) :
    items.eraseDups.length + (repeats items).length = items.length := by
  rw [← freshBy_id, ← repeatsBy_nil]
  exact length_freshBy_add_length_repeatsBy id [] items

/-- The events under one base are all the repeats of its entry, or none of them. -/
theorem countP_repeats (base other : TypeName) (markers : List TypeName) :
    ((repeats markers).map (Event.repeatedMarker other)).countP (Event.isRepeatOf base) =
      if other = base then (repeats markers).length else 0 := by
  rw [List.countP_map]
  by_cases same : other = base
  · rw [if_pos same]
    exact List.countP_eq_length.mpr fun marker _ => decide_eq_true same
  · rw [if_neg same]
    exact List.countP_eq_zero.mpr fun marker _ found => same (of_decide_eq_true found)

/-- Where bases are distinct, the events under a base are the repeats of its one entry. -/
theorem countP_events {read : List (TypeName × List TypeName)} (distinct : (read.map Prod.fst).Nodup)
    {entry : TypeName × List TypeName} (member : entry ∈ read) :
    (read.flatMap fun other => (repeats other.2).map (Event.repeatedMarker other.1)).countP
      (Event.isRepeatOf entry.1) = (repeats entry.2).length := by
  induction read with
  | nil => cases member
  | cons first rest ih =>
    obtain ⟨new, distinctRest⟩ := List.nodup_cons.mp distinct
    rw [List.flatMap_cons, List.countP_append, countP_repeats]
    rcases List.mem_cons.mp member with rfl | later
    · have none : (rest.flatMap fun other => (repeats other.2).map
          (Event.repeatedMarker other.1)).countP (Event.isRepeatOf entry.1) = 0 := by
        refine List.countP_eq_zero.mpr fun event told found => ?_
        obtain ⟨other, inRest, fromOther⟩ := List.mem_flatMap.mp told
        obtain ⟨marker, _, rfl⟩ := List.mem_map.mp fromOther
        exact new (of_decide_eq_true found ▸ List.mem_map_of_mem inRest)
      rw [if_pos rfl, none, Nat.add_zero]
    · have different : first.1 ≠ entry.1 := fun same => new (same ▸ List.mem_map_of_mem later)
      rw [if_neg different, Nat.zero_add, ih distinctRest later]

/-- **No marker is lost**: what an entry lists is kept under its base or told of. -/
theorem length_of_built {raws : List (String × List String)} {raw : String × List String}
    {read : List (TypeName × List TypeName)} {loaded : Logged Mapping}
    (built : Built raws read loaded) (written : raw ∈ raws) :
    ∃ base kept, TypeName.parse raw.1 = .ok base ∧ loaded.value.markers? base = some kept ∧
      raw.2.length = kept.length + loaded.events.countP (Event.isRepeatOf base) := by
  obtain ⟨entry, member, reads⟩ := exists_right_of_mem built.reads written
  have distinct : (read.map Prod.fst).Nodup := built.bases ▸ loaded.value.table.distinct
  refine ⟨entry.1, entry.2.eraseDups, reads.base, built.markers?_eq member, ?_⟩
  rw [built.events, countP_events distinct member, length_eraseDups_add_length_repeats,
    reads.markers.length_eq]

end Counting

/-- **What becomes of a draft.**

* It is accepted exactly when every entry is good behind those before it.
* Then the mapping has an entry for each written one, in the same order, with the base in normal form
  and the markers in normal form at their first occurrences; bases are distinct, and so are the
  markers of each; the events name the other occurrences, entry by entry; and under each base as many
  markers are kept and told of as were written.
* Otherwise there is a first entry that is not good, and the error says what is wrong with it. -/
theorem ofDraft_exact (draft : Draft) :
    ((∃ loaded, ofDraft draft = .ok loaded) ↔ Throughout Good draft.pairs) ∧
    (∀ loaded, ofDraft draft = .ok loaded →
      (∃ read, List.Forall₂ Reads draft.pairs read ∧
        loaded.value.entries = read.map (fun entry => (entry.1, entry.2.eraseDups)) ∧
        loaded.events = read.flatMap fun entry =>
          (repeats entry.2).map (Event.repeatedMarker entry.1)) ∧
      loaded.value.bases.Nodup ∧ (∀ entry ∈ loaded.value.entries, entry.2.Nodup) ∧
      ∀ raw ∈ draft.pairs, ∃ base kept, TypeName.parse raw.1 = .ok base ∧
        loaded.value.markers? base = some kept ∧
        raw.2.length = kept.length + loaded.events.countP (Event.isRepeatOf base)) ∧
    ∀ error, ofDraft draft = .error error ↔
      ∃ earlier raw later, draft.pairs = earlier ++ raw :: later ∧ Throughout Good earlier ∧
        ¬ Good earlier raw ∧ Flaw earlier raw error := by
  rw [ofDraft_eq_foldlM]
  refine ⟨admission.ok_iff, fun loaded done => ?_, fun error => ?_⟩
  · obtain ⟨read, built⟩ := admission.built_of_ok done
    exact ⟨⟨read, built.reads, built.entries, built.events⟩, loaded.value.table.distinct,
      loaded.value.distinct, fun raw written => length_of_built built written⟩
  · rw [admission.error_iff]
    constructor
    · rintro ⟨earlier, raw, later, split, good, flaw⟩
      exact ⟨earlier, raw, later, split, good, flaw.not_good, flaw⟩
    · rintro ⟨earlier, raw, later, split, good, _, flaw⟩
      exact ⟨earlier, raw, later, split, good, flaw⟩

namespace Doubles

/-- A base, and a marker. -/
def base : TypeName := ⟨"App\\Base", by decide⟩
def marker : TypeName := ⟨"Mark", by decide⟩

/-- A marker in both spellings, and one more. -/
def markerTwice : Draft := Table.ofPairs [("\\App\\Base", ["Mark", "\\Mark", "B"]), ("C", [])]

/-- A base in both spellings; the second entry has a misspelt marker too. -/
def baseTwice : Draft := Table.ofPairs [("App\\Base", ["Mark"]), ("\\App\\Base", ["1"])]

end Doubles

open Doubles in
/-- Of three markers two are kept and one is told of; and of two flaws in one entry the repeated base
is the one reported. -/
theorem doubles_in_drafts :
    (∃ loaded kept, ofDraft markerTwice = .ok loaded ∧ loaded.value.markers? base = some kept ∧
      3 = kept.length + loaded.events.countP (Event.isRepeatOf base)) ∧
    ofDraft baseTwice = .error (.duplicateBase base) := by
  constructor
  · obtain ⟨loaded, done, _⟩ := @exists_ok_of_seen _ _ _ (ofDraft markerTwice)
      (fun loaded => loaded.events.length) 1 (by decide +kernel)
    obtain ⟨_, _, _, counts⟩ := (ofDraft_exact markerTwice).2.1 loaded done
    obtain ⟨found, kept, spelt, listed, together⟩ :=
      counts ("\\App\\Base", ["Mark", "\\Mark", "B"]) (by decide)
    obtain rfl : base = found := Except.ok.inj spelt
    exact ⟨loaded, kept, done, listed, together⟩
  · have first : Good [] ("App\\Base", ["Mark"]) :=
      ⟨by decide, ⟨base, rfl⟩, nofun, by simpa using ⟨marker, rfl⟩⟩
    have flaw : Flaw [("App\\Base", ["Mark"])] ("\\App\\Base", ["1"]) (.duplicateBase base) :=
      .repeated (by decide) rfl List.mem_cons_self rfl
    exact ((ofDraft_exact baseTwice).2.2 _).mpr ⟨[("App\\Base", ["Mark"])], _, [], by decide,
      throughout_concat.mpr ⟨throughout_nil, first⟩, flaw.not_good, flaw⟩

end Mapping

end Mixin
