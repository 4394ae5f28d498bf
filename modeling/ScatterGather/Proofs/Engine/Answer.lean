import ScatterGather.Proofs.Engine.Ledger

/-!
# Answer — what a returned call says about its units

The positions of the units of a call are those of its slots, each once.  Then an answer can be read
both ways: what it is follows from how the units come out, and how they came out follows from it.

* `Task.Numbered` : the positions of the units are `0, 1, …`, in some order;
* `Share.Answered.cases_of_numbered` : the four answers that are possible, and what is known of the
  history behind each;
* `Share.Complete.placed`, `Share.Complete.slots` : the slots of a call all of whose units have run;
* `Share.Complete.countP_failure`, `Share.Complete.first` : its failures.
-/

namespace ScatterGather

variable {κ α : Type}

/-! ## Units -/

namespace Work

theorem countP_report? (us : List (Work κ α)) :
    (us.filterMap report?).countP Report.isFailure = us.countP fun u => u.Fails := by
  induction us with
  | nil => rfl
  | cons u us ih =>
      rcases u.outcome_cases with ⟨a, ha⟩ | ⟨e, he⟩ | hp
      · have hnot : ¬ u.Fails := fun hf => hf.not_succeeds ⟨a, ha⟩
        simp [report?_value ha, ih, hnot]
      · have hfails : u.Fails := ⟨e, he⟩
        simp [report?_failure he, List.countP_cons, ih, hfails]
      · have hnot : ¬ u.Fails := fun hf => hf.not_panics hp
        have hnone : u.report? = none := by
          have ho : u.outcome = .panic := hp
          simp [report?, ho, Outcome.result?]
        simp [hnone, ih, hnot]

/-- A unit that does not panic has a report. -/
theorem length_filterMap_report? {us : List (Work κ α)} (calm : ∀ u ∈ us, ¬ u.Panics) :
    (us.filterMap report?).length = us.length := by
  rw [List.length_filterMap_eq_countP]
  apply List.countP_eq_length.mpr
  intro u hu
  rcases u.outcome_cases with ⟨a, ha⟩ | ⟨e, he⟩ | hp
  · simp [report?_value ha]
  · simp [report?_failure he]
  · exact absurd hp (calm u hu)

end Work

/-! ## Positions -/

namespace Task

variable {t : Task κ α}

/-- Every position below the number of units is that of exactly one unit. -/
def Numbered (t : Task κ α) : Prop :=
  (t.units.map (·.position)).Perm (List.range t.total)

namespace Numbered

theorem lt_total (h : t.Numbered) {u : Work κ α} (hu : u ∈ t.units) : u.position < t.total :=
  List.mem_range.mp (h.subset (List.mem_map_of_mem hu))

theorem exists_unit (h : t.Numbered) {position : Nat} (hlt : position < t.total) :
    ∃ u ∈ t.units, u.position = position :=
  List.mem_map.mp (h.symm.subset (List.mem_range.mpr hlt))

theorem eq_of_position (h : t.Numbered) {u w : Work κ α} (hu : u ∈ t.units) (hw : w ∈ t.units)
    (heq : u.position = w.position) : u = w :=
  List.inj_on_of_nodup_map (h.nodup_iff.mpr List.nodup_range) hu hw heq

/-- Positions do not depend on the grouping. -/
theorem of_perm {t' : Task κ α} (h : t.Numbered) (hperm : t'.units.Perm t.units) : t'.Numbered := by
  have htotal : t'.total = t.total := hperm.length_eq
  have hpositions : (t'.units.map (·.position)).Perm (List.range t.total) :=
    (hperm.map Work.position).trans h
  rwa [← htotal] at hpositions

end Numbered

end Task

/-! ## Answers -/

namespace Share

variable {t : Task κ α} {s : Share κ α}

/-- A returned call without skips and panics behind it has heard of every unit. -/
theorem Complete.length_channel (h : s.Complete t) (v : s.Valid t)
    (calm : ∀ u ∈ t.units, ¬ u.Panics) : (History.channel s.history).length = t.total :=
  (h.channel_perm v).length_eq.trans (Work.length_filterMap_report? calm)

theorem Valid.lt_total (v : s.Valid t) (hnum : t.Numbered) {r : Report α}
    (hr : r ∈ History.channel s.history) : r.position < t.total := by
  rcases List.mem_map.mp (v.position_mem hr) with ⟨u, hu, heq⟩
  exact heq ▸ hnum.lt_total hu

namespace Complete

/-- Every value was reported. -/
theorem mem_value (h : s.Complete t) (v : s.Valid t) {u : Work κ α} {a : α} (hu : u ∈ t.units)
    (ha : u.outcome = .value a) : .done u.position (.ok a) ∈ History.channel s.history :=
  (h.channel_perm v).symm.subset (List.mem_filterMap.mpr ⟨u, hu, Work.report?_value ha⟩)

/-- A slot has the value of one of the units at its position, and else there is none. -/
theorem placed (h : s.Complete t) (v : s.Valid t) {position : Nat} (hlt : position < t.total) :
    (((History.channel s.history).foldl Report.place (List.replicate t.total none))[position]? =
        some none ∧ ∀ u ∈ t.units, u.Succeeds → u.position ≠ position) ∨
      ∃ u ∈ t.units, u.position = position ∧ ∃ a, u.outcome = .value a ∧
        ((History.channel s.history).foldl Report.place
          (List.replicate t.total none))[position]? = some (some a) := by
  rcases Report.getElem?_placeAll (History.channel s.history) hlt with
    ⟨hnone, hnot⟩ | ⟨a, hslot, hmem⟩
  · refine .inl ⟨hnone, ?_⟩
    rintro u hu ⟨a, ha⟩ rfl
    exact hnot a (h.mem_value v hu ha)
  · rcases List.mem_filterMap.mp ((h.channel_perm v).subset hmem) with ⟨u, hu, hreport⟩
    rcases Work.report?_eq_value hreport with ⟨hposition, ha⟩
    exact .inr ⟨u, hu, hposition, a, ha, hslot⟩

/-- Where positions are not shared, the slots hold the values of all units. -/
theorem slots (h : s.Complete t) (v : s.Valid t) (hnum : t.Numbered) {u : Work κ α} {a : α}
    (hu : u ∈ t.units) (ha : u.outcome = .value a) :
    ((History.channel s.history).foldl Report.place
      (List.replicate t.total none))[u.position]? = some (some a) := by
  rcases h.placed v (hnum.lt_total hu) with ⟨-, hvacant⟩ | ⟨w, hw, hposition, b, hb, hslot⟩
  · exact absurd rfl (hvacant u hu ⟨a, ha⟩)
  · have hsame : w = u := hnum.eq_of_position hw hu hposition
    rw [hsame, ha] at hb
    cases hb
    exact hslot

theorem countP_failure (h : s.Complete t) (v : s.Valid t) :
    (History.channel s.history).countP Report.isFailure = t.units.countP fun u => u.Fails := by
  rw [(h.channel_perm v).countP_eq, Work.countP_report?]

/-- The failure that is kept is that of the failing unit at the lowest position. -/
theorem first (h : s.Complete t) (v : s.Valid t) {position : Nat} {e : ExecutionError}
    (hkeep : (History.channel s.history).foldl Report.keep none = some (position, e)) :
    ∃ u ∈ t.units, u.outcome = .failure e ∧
      ∀ w ∈ t.units, w.Fails → u.position ≤ w.position := by
  rcases Report.keepAll_eq_some hkeep with ⟨hmem, hleast⟩
  rcases v.of_failure hmem with ⟨u, hu, hposition, he⟩
  refine ⟨u, hu, he, ?_⟩
  rintro w hw ⟨f, hf⟩
  rw [hposition]
  -- a failing unit has reported, so the kept failure is not behind it
  apply hleast w.position f
  exact (h.channel_perm v).symm.subset
    (List.mem_filterMap.mpr ⟨w, hw, Work.report?_failure hf⟩)

end Complete

/-- The answers that are possible. -/
theorem Answered.cases_of_numbered {answer : Answer α} (h : s.Answered t answer) (v : s.Valid t)
    (hnum : t.Numbered) :
    (∃ slots, answer = .ok slots ∧ s.Complete t ∧ (∀ u ∈ t.units, u.Succeeds) ∧
      slots = (History.channel s.history).foldl Report.place (List.replicate t.total none)) ∨
    (∃ position e, answer = .error (.execution (.aggregate e
        ((History.channel s.history).countP Report.isFailure))) ∧ t.policy = .bestEffort ∧
      s.Settled t ∧ (History.channel s.history).foldl Report.keep none = some (position, e)) ∨
    (∃ got lost position e, answer = .error (.execution e) ∧ t.policy = .failFast ∧
      History.channel s.history = got ++ .done position (.error e) :: lost ∧
      ∀ r ∈ got, r.isFailure = false) ∨
    (∃ got, answer = .error (.bug (.workerStopped t.queryId got t.total)) ∧
      s.Settled t ∧ (History.channel s.history).length < t.total ∧
      (t.policy = .failFast → ∀ r ∈ History.channel s.history, r.isFailure = false)) := by
  cases h with
  | @verdict got lost _ verdict channel =>
      -- which verdict it is tells what the reports that were taken have in common
      cases verdict with
      | complete all calm inRange =>
          left
          have hchannel := v.channel_eq_of_full channel all
          rcases v.complete_of_full (hchannel ▸ all) (hchannel ▸ calm) with ⟨hcomplete, hsucceed⟩
          exact ⟨_, rfl, hcomplete, hsucceed, by rw [hchannel]⟩
      | @aggregate _ position e patient all first inRange =>
          right; left
          have hchannel := v.channel_eq_of_full channel all
          exact ⟨position, e, by rw [hchannel], patient, v.settled_of_full (hchannel ▸ all),
            hchannel ▸ first⟩
      | @failure got position e fast calm =>
          right; right; left
          exact ⟨got, lost, position, e, rfl, fast, by simp [channel], calm⟩
      | @outOfRange got position a out =>
          have hmem : .done position (.ok a) ∈ History.channel s.history := by simp [channel]
          exact absurd (v.lt_total hnum hmem) (not_lt.mpr out)
  | @stopped got stopped =>
      right; right; right
      refine ⟨got.length, rfl, stopped.finished.settled, ?_, ?_⟩
      · rw [stopped.channel]
        exact stopped.missing
      · rw [stopped.channel]
        exact stopped.calm

/-- No aggregate is reported unless it is the failure of a unit. -/
theorem Valid.aggregate_not_mem (v : s.Valid t)
    (hplain : ∀ u ∈ t.units, ∀ e n, u.outcome ≠ .failure (.aggregate e n)) (position : Nat)
    (e : ExecutionError) (n : Nat) :
    .done position (.error (.aggregate e n)) ∉ History.channel s.history := by
  intro hmem
  rcases v.of_failure hmem with ⟨u, hu, -, he⟩
  exact hplain u hu e n he

/-- Slots, and an aggregate that is not the failure of a unit, are answers of calls all of whose
units have run. -/
theorem Answered.complete {answer : Answer α} (h : s.Answered t answer) (v : s.Valid t)
    (hplain : ∀ u ∈ t.units, ∀ e n, u.outcome ≠ .failure (.aggregate e n))
    (hanswer : (∃ slots, answer = .ok slots) ∨
      ∃ e n, answer = .error (.execution (.aggregate e n))) : s.Complete t := by
  cases h with
  | @verdict got lost _ verdict channel =>
      have hfull (all : got.length = t.total) : (History.channel s.history).length = t.total := by
        rw [v.channel_eq_of_full channel all, all]
      cases verdict with
      | complete all calm inRange =>
          have hchannel := v.channel_eq_of_full channel all
          exact (v.complete_of_full (hfull all) (hchannel ▸ calm)).1
      | aggregate patient all first inRange => exact v.complete_of_full_patient (hfull all) patient
      | @failure got position e fast calm =>
          have hmem : .done position (.error e) ∈ History.channel s.history := by simp [channel]
          rcases hanswer with ⟨slots, hslots⟩ | ⟨e', n, haggregate⟩
          · cases hslots
          · cases haggregate
            exact absurd hmem (v.aggregate_not_mem hplain position e' n)
      | outOfRange out => rcases hanswer with ⟨slots, hslots⟩ | ⟨e', n, haggregate⟩ <;> simp_all
  | stopped stopped => rcases hanswer with ⟨slots, hslots⟩ | ⟨e', n, haggregate⟩ <;> simp_all

/-- Such an aggregate counts the units that fail. -/
theorem Answered.countP_fails {e : ExecutionError} {n : Nat}
    (h : s.Answered t (.error (.execution (.aggregate e n)))) (v : s.Valid t) (hnum : t.Numbered)
    (hplain : ∀ u ∈ t.units, ∀ e n, u.outcome ≠ .failure (.aggregate e n)) :
    (t.units.countP fun u => u.Fails) = n := by
  have hcomplete := h.complete v hplain (.inr ⟨e, n, rfl⟩)
  rw [← hcomplete.countP_failure v]
  rcases h.cases_of_numbered v hnum with
    ⟨_, hne, -⟩ | ⟨_, _, heq, -⟩ | ⟨got, lost, position, e', heq, -, hchannel, -⟩ | ⟨_, hne, -⟩
  · cases hne
  · cases heq
    rfl
  · cases heq
    have hmem : .done position (.error (.aggregate e n)) ∈ History.channel s.history := by
      simp [hchannel]
    exact absurd hmem (v.aggregate_not_mem hplain position e n)
  · cases hne

end Share

end ScatterGather
