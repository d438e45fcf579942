/-
**Entries are admitted one by one.**

A configuration is built by a step that takes one written entry after the other and stops at the first
it cannot take.  What can be taken depends on the entries before it.  Given what makes an entry good
behind others, what is wrong with it otherwise, and what has been built so far, three facts about the
step (`Admission`) settle every run of it.

* `Throughout Good raws` — every entry is good behind those before it.
* `Admission.throughout_or_first` — entries are good throughout, or one of them is the first that is
  not.
* **`Admission.ok_iff`, `Admission.built_of_ok`, `Admission.error_iff`** — a run ends well exactly when
  the entries are good throughout, it has then built what it should, and its error is otherwise the
  flaw of the first entry that is not good.
-/

import Mathlib.Data.List.Forall2
import Mathlib.Data.List.Induction

namespace Mixin

/-! ### Lists of related items -/

section Related

variable {α β : Type} {R : α → β → Prop} {left : List α} {right : List β}

theorem exists_right_of_mem (related : List.Forall₂ R left right) {item : α} (member : item ∈ left) :
    ∃ partner ∈ right, R item partner := by
  induction related with
  | nil => cases member
  | @cons first other _ _ here _ ih =>
    rcases List.mem_cons.mp member with rfl | later
    · exact ⟨other, List.mem_cons_self, here⟩
    · obtain ⟨partner, found, holds⟩ := ih later
      exact ⟨partner, List.mem_cons_of_mem _ found, holds⟩

theorem exists_left_of_mem (related : List.Forall₂ R left right) {partner : β}
    (member : partner ∈ right) : ∃ item ∈ left, R item partner :=
  exists_right_of_mem related.flip member

/-- Items of which each has a partner have a list of partners. -/
theorem exists_forall₂ (each : ∀ item ∈ left, ∃ partner, R item partner) :
    ∃ right, List.Forall₂ R left right := by
  induction left with
  | nil => exact ⟨[], .nil⟩
  | cons first rest ih =>
    obtain ⟨⟨partner, here⟩, others⟩ := List.forall_mem_cons.mp each
    obtain ⟨right, later⟩ := ih others
    exact ⟨partner :: right, .cons here later⟩

end Related

/-! ### Entries that are good throughout -/

section Throughout

variable {ρ : Type} {Good : List ρ → ρ → Prop} {raws : List ρ} {last : ρ}

/-- Every entry is good behind those before it. -/
def Throughout (Good : List ρ → ρ → Prop) (raws : List ρ) : Prop :=
  ∀ earlier raw later, raws = earlier ++ raw :: later → Good earlier raw

theorem throughout_nil : Throughout Good [] := by
  intro earlier raw later split
  simp at split

/-- With one entry more, the entries are good throughout if they were and the last one is good. -/
theorem throughout_concat :
    Throughout Good (raws ++ [last]) ↔ Throughout Good raws ∧ Good raws last := by
  constructor
  · intro good
    refine ⟨fun earlier raw later split => ?_, good raws last [] rfl⟩
    exact good earlier raw (later ++ [last]) (by simp [split])
  · rintro ⟨good, lastGood⟩ earlier raw later split
    rcases List.eq_nil_or_concat later with rfl | ⟨between, final, rfl⟩
    · obtain ⟨rfl, same⟩ := List.append_inj' split rfl
      obtain rfl := List.singleton_inj.mp same
      exact lastGood
    · have shorter : raws ++ [last] = (earlier ++ raw :: between) ++ [final] := by simpa using split
      exact good earlier raw between (List.append_inj' shorter rfl).1

/-- Of two entries that are good throughout, one is good behind the other. -/
theorem good_behind (good : Throughout Good raws) {one other : ρ} (first : one ∈ raws)
    (second : other ∈ raws) (different : one ≠ other) :
    (∃ earlier, one ∈ earlier ∧ Good earlier other) ∨
      ∃ earlier, other ∈ earlier ∧ Good earlier one := by
  obtain ⟨earlier, later, rfl⟩ := List.append_of_mem first
  rcases List.mem_append.mp second with before | behind
  · exact .inr ⟨earlier, before, good earlier one later rfl⟩
  · have after : other ∈ later := (List.mem_cons.mp behind).resolve_left fun same => different same.symm
    obtain ⟨between, rest, rfl⟩ := List.append_of_mem after
    exact .inl ⟨earlier ++ one :: between, by simp,
      good (earlier ++ one :: between) other rest (by simp)⟩

end Throughout

/-! ### Runs -/

/-- A step that admits good entries and refuses flawed ones.  What has been built when some entries are
done is for the user to say. -/
structure Admission {ρ σ ε : Type} (step : σ → ρ → Except ε σ) (start : σ)
    (Good : List ρ → ρ → Prop) (Flaw : List ρ → ρ → ε → Prop) (Built : List ρ → σ → Prop) :
    Prop where
  /-- An entry is good or has a flaw. -/
  decided : ∀ earlier raw, Good earlier raw ∨ ∃ error, Flaw earlier raw error
  /-- Without entries the start is what is built. -/
  begins : Built [] start
  /-- A good entry is taken. -/
  takes : ∀ {earlier state raw}, Built earlier state → Good earlier raw →
    ∃ next, step state raw = .ok next ∧ Built (earlier ++ [raw]) next
  /-- A flaw is the error. -/
  refuses : ∀ {earlier state raw error}, Built earlier state → Flaw earlier raw error →
    step state raw = .error error

namespace Admission

variable {ρ σ ε : Type} {step : σ → ρ → Except ε σ} {start : σ} {Good : List ρ → ρ → Prop}
  {Flaw : List ρ → ρ → ε → Prop} {Built : List ρ → σ → Prop} {raws : List ρ}

/-- **Entries are good throughout, or one is the first that is not.** -/
theorem throughout_or_first (admission : Admission step start Good Flaw Built) (raws : List ρ) :
    Throughout Good raws ∨ ∃ earlier raw later error, raws = earlier ++ raw :: later ∧
      Throughout Good earlier ∧ Flaw earlier raw error := by
  induction raws using List.reverseRecOn with
  | nil => exact .inl throughout_nil
  | append_singleton raws last ih =>
    rcases ih with good | ⟨earlier, raw, later, error, rfl, good, flaw⟩
    · rcases admission.decided raws last with fine | ⟨error, flaw⟩
      · exact .inl (throughout_concat.mpr ⟨good, fine⟩)
      · exact .inr ⟨raws, last, [], error, rfl, good, flaw⟩
    · exact .inr ⟨earlier, raw, later ++ [last], error, by simp, good, flaw⟩

/-- **A run over good entries** takes them all. -/
theorem built_of_throughout (admission : Admission step start Good Flaw Built)
    (good : Throughout Good raws) : ∃ state, raws.foldlM step start = .ok state ∧ Built raws state := by
  induction raws using List.reverseRecOn with
  | nil => exact ⟨start, rfl, admission.begins⟩
  | append_singleton raws last ih =>
    obtain ⟨goodBefore, goodLast⟩ := throughout_concat.mp good
    obtain ⟨state, done, built⟩ := ih goodBefore
    obtain ⟨next, taken, grown⟩ := admission.takes built goodLast
    refine ⟨next, ?_, grown⟩
    rw [List.foldlM_append, done]
    simp only [List.foldlM_cons, List.foldlM_nil, taken, bind, Except.bind, pure, Except.pure]

/-- **A run that meets a flaw** ends with it, whatever comes behind. -/
theorem error_of_flaw (admission : Admission step start Good Flaw Built) {raw : ρ} {error : ε}
    (good : Throughout Good raws) (flaw : Flaw raws raw error) (later : List ρ) :
    (raws ++ raw :: later).foldlM step start = .error error := by
  obtain ⟨state, done, built⟩ := admission.built_of_throughout good
  rw [List.foldlM_append, done]
  simp only [List.foldlM_cons, admission.refuses built flaw, bind, Except.bind]

/-- A run ends well exactly when the entries are good throughout. -/
theorem ok_iff (admission : Admission step start Good Flaw Built) :
    (∃ state, raws.foldlM step start = .ok state) ↔ Throughout Good raws := by
  constructor
  · rintro ⟨state, done⟩
    refine (admission.throughout_or_first raws).resolve_right ?_
    rintro ⟨earlier, raw, later, error, rfl, good, flaw⟩
    rw [admission.error_of_flaw good flaw] at done
    cases done
  · intro good
    obtain ⟨state, done, _⟩ := admission.built_of_throughout good
    exact ⟨state, done⟩

/-- A run that ends well has built what it should. -/
theorem built_of_ok (admission : Admission step start Good Flaw Built) {state : σ}
    (done : raws.foldlM step start = .ok state) : Built raws state := by
  obtain ⟨other, same, built⟩ := admission.built_of_throughout (admission.ok_iff.mp ⟨state, done⟩)
  obtain rfl := Except.ok.inj (same.symm.trans done)
  exact built

/-- A run ends in an error exactly when this is the flaw of the first entry that has one. -/
theorem error_iff (admission : Admission step start Good Flaw Built) {error : ε} :
    raws.foldlM step start = .error error ↔
      ∃ earlier raw later, raws = earlier ++ raw :: later ∧ Throughout Good earlier ∧
        Flaw earlier raw error := by
  constructor
  · intro failed
    rcases admission.throughout_or_first raws with good | ⟨earlier, raw, later, other, rfl, good, flaw⟩
    · obtain ⟨state, done⟩ := admission.ok_iff.mpr good
      rw [done] at failed
      cases failed
    · obtain rfl := Except.error.inj ((admission.error_of_flaw good flaw later).symm.trans failed)
      exact ⟨earlier, raw, later, rfl, good, flaw⟩
  · rintro ⟨earlier, raw, later, rfl, good, flaw⟩
    exact admission.error_of_flaw good flaw later

end Admission

end Mixin
