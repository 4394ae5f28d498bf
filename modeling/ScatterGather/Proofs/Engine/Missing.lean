import Mathlib.Data.List.TakeWhile
import ScatterGather.Proofs.Engine.Returns

/-!
# Missing — the reports that a panic takes away

A panic ends its batch without a word.  All that was reported before still reaches the caller, who
stops only when no report can come any more.  So where no failure ends the call first, the number
of reports that are missing is the same in every run.

* `Work.heard`, `Task.heard` : the units in front of the panics;
* `Share.Settled.channel_heard` : these are the units that report;
* `Engine.worker_stopped_iff` : when a call is stopped for want of reports, and what it says then.
-/

namespace ScatterGather

variable {κ α : Type}

/-- What is asked of fail-fast only is else of no interest. -/
theorem Policy.bestEffort_or_of_failFast {p : Policy} {P : Prop} (h : p = .failFast → P) :
    p = .bestEffort ∨ P := by
  cases p with
  | bestEffort => exact .inl rfl
  | failFast => exact .inr (h rfl)

/-! ## Units in front of a panic -/

namespace Work

/-- The units in front of the first one that panics, or all units where none does. -/
def heard (us : List (Work κ α)) : List (Work κ α) :=
  us.takeWhile fun u => !decide u.Panics

theorem heard_of_calm {us : List (Work κ α)} (calm : ∀ u ∈ us, ¬ u.Panics) : heard us = us := by
  apply List.takeWhile_eq_self_iff.mpr
  simpa using calm

theorem heard_of_panic {front back : List (Work κ α)} {u : Work κ α}
    (calm : ∀ w ∈ front, ¬ w.Panics) (hu : u.Panics) : heard (front ++ u :: back) = front := by
  rw [heard, List.takeWhile_append_of_pos (by simpa using calm),
    List.takeWhile_cons_of_neg (by simpa using hu), List.append_nil]

theorem heard_sublist (us : List (Work κ α)) : (heard us).Sublist us :=
  List.takeWhile_sublist _

theorem not_panics_of_mem_heard {us : List (Work κ α)} {u : Work κ α} (h : u ∈ heard us) :
    ¬ u.Panics := by
  simpa using List.mem_takeWhile_imp h

end Work

/-- The first unit of the batch that does not succeed is one that fails. -/
def Batch.Falters (b : Batch κ α) : Prop :=
  ∃ front u back, b.units = front ++ u :: back ∧ (∀ w ∈ front, w.Succeeds) ∧ u.Fails

namespace Task

variable {t : Task κ α}

/-- The units of all batches that are in front of the panic of their batch. -/
def heard (t : Task κ α) : List (Work κ α) :=
  t.batches.flatMap fun b => Work.heard b.units

theorem flatMap_lanes_heard (t : Task κ α) :
    (t.lanes.flatMap fun l => Work.heard l.units) = t.heard := by
  calc
    (t.lanes.flatMap fun l => Work.heard l.units)
        = (t.lanes.map Lane.units).flatMap Work.heard := by rw [List.flatMap_map]
    _ = t.heard := by rw [t.lanes_units, List.flatMap_map]; rfl

theorem heard_sublist (t : Task κ α) : t.heard.Sublist t.units :=
  List.Sublist.flatMap_right _ fun b _ => Work.heard_sublist b.units

theorem not_panics_of_mem_heard {u : Work κ α} (h : u ∈ t.heard) : ¬ u.Panics := by
  rcases List.mem_flatMap.mp h with ⟨b, -, hu⟩
  exact Work.not_panics_of_mem_heard hu

/-- All units are heard of if and only if none panics. -/
theorem length_heard_lt_iff : t.heard.length < t.total ↔ ∃ u ∈ t.units, u.Panics := by
  constructor
  · intro hlt
    by_contra hnone
    have hcalm : ∀ b ∈ t.batches, Work.heard b.units = b.units := by
      intro b hb
      apply Work.heard_of_calm
      intro u hu hpanics
      exact hnone ⟨u, List.mem_flatMap.mpr ⟨b, hb, hu⟩, hpanics⟩
    have hall : t.heard = t.units := List.flatMap_congr hcalm
    rw [hall] at hlt
    exact Nat.lt_irrefl _ hlt
  · rintro ⟨u, hu, hpanics⟩
    apply Nat.lt_of_le_of_ne t.heard_sublist.length_le
    intro hlength
    -- were no unit missing, the one that panics would be heard of
    have hall : t.heard = t.units := t.heard_sublist.eq_of_length hlength
    exact not_panics_of_mem_heard (hall ▸ hu) hpanics

end Task

/-! ## Reports of settled calls -/

/-- A lane that has skipped nothing and is settled has reported the units in front of its panic. -/
theorem Lane.Account.channel_heard {l : Lane κ α} {abort : Bool} {h : History κ α}
    {ran current left : List (Work κ α)} (ha : l.Account abort h ran current [] left)
    (hend : current = [] ∧ left = [] ∨ ∃ u, current = [u] ∧ u.Panics) :
    History.channel h = (Work.heard l.units).filterMap Work.report? := by
  have hheard : Work.heard l.units = ran := by
    rw [ha.units]
    rcases hend with ⟨rfl, rfl⟩ | ⟨u, rfl, hpanics⟩
    · simpa using Work.heard_of_calm ha.reported
    · rw [List.append_nil, List.append_assoc]
      exact Work.heard_of_panic ha.reported hpanics
  rw [ha.channel, hheard, List.map_nil, List.append_nil]

namespace Share

variable {t : Task κ α} {s : Share κ α} {answer : Answer α}

/-- Where nothing can have been skipped a settled call has heard of all units in front of the
panics. -/
theorem Settled.channel_heard (h : s.Settled t) (v : s.Valid t)
    (hskip : t.policy = .bestEffort ∨ ∀ r ∈ History.channel s.history, r.isFailure = false) :
    (History.channel s.history).Perm (t.heard.filterMap Work.report?) := by
  rw [← t.flatMap_lanes_heard, List.filterMap_flatMap]
  apply v.filterMap_perm Occurrence.report?
  intro l hl
  rcases h l hl with ⟨ran, current, skipped, left, ha, hend⟩
  have hskipped : skipped = [] := by
    apply ha.skipped_eq_nil
    rintro ⟨hfast, hraised⟩
    rcases hskip with hpatient | calm
    · rw [Task.policy_of_mem hl, hpatient] at hfast
      cases hfast
    · simp [h.abort_eq_false v calm] at hraised
  subst hskipped
  exact ha.channel_heard (hend.imp_right And.right)

theorem Settled.length_channel (h : s.Settled t) (v : s.Valid t)
    (hskip : t.policy = .bestEffort ∨ ∀ r ∈ History.channel s.history, r.isFailure = false) :
    (History.channel s.history).length = t.heard.length :=
  (h.channel_heard v hskip).length_eq.trans
    (Work.length_filterMap_report? fun _ hu => Task.not_panics_of_mem_heard hu)

/-- What a call knows that is stopped for want of reports. -/
theorem Stopped.length_eq {got : List (Report α)} (h : s.Stopped t got) (v : s.Valid t) :
    got.length = t.heard.length := by
  rw [← h.channel]
  exact h.finished.settled.length_channel v
    (Policy.bestEffort_or_of_failFast (h.channel.symm ▸ h.calm))

/-- The only bug that a call reports tells how many units were heard of. -/
theorem Answered.bug_eq {b : Bug} (h : s.Answered t (.error (.bug b))) (v : s.Valid t)
    (hnum : t.Numbered) : b = .workerStopped t.queryId t.heard.length t.total := by
  cases h with
  | @verdict got lost _ verdict channel =>
      cases verdict with
      | @outOfRange got position a out =>
          have hmem : .done position (.ok a) ∈ History.channel s.history := by simp [channel]
          exact absurd (v.lt_total hnum hmem) (not_lt.mpr out)
  | stopped stopped => rw [stopped.length_eq v]

theorem Answered.panics_of_bug {b : Bug} (h : s.Answered t (.error (.bug b))) (v : s.Valid t)
    (hnum : t.Numbered) : ∃ u ∈ t.units, u.Panics := by
  rw [← Task.length_heard_lt_iff]
  rcases h.cases_of_numbered v hnum with
    ⟨_, hne, -⟩ | ⟨_, _, hne, -⟩ | ⟨_, _, _, _, hne, -⟩ | ⟨got, -, hsettled, hshort, calm⟩
  · cases hne
  · cases hne
  · cases hne
  · rwa [hsettled.length_channel v (Policy.bestEffort_or_of_failFast calm)] at hshort

/-- Under best effort only the last report brings an error of the units. -/
theorem Answered.total_le_of_patient {err : ExecutionError}
    (h : s.Answered t (.error (.execution err))) (hpatient : t.policy = .bestEffort) :
    t.total ≤ (History.channel s.history).length := by
  cases h with
  | @verdict got lost _ verdict channel =>
      cases verdict with
      | aggregate patient all first inRange =>
          rw [channel, List.length_append]
          omega
      | failure fast calm =>
          rw [hpatient] at fast
          cases fast

/-- Where a unit panics and no failure ends the call, reports are missing. -/
theorem Answered.bug_of_panics (h : s.Answered t answer) (v : s.Valid t) (hnum : t.Numbered)
    (hpanics : ∃ u ∈ t.units, u.Panics)
    (hpolicy : t.policy = .bestEffort ∨ ∀ b ∈ t.batches, ¬ b.Falters) :
    ∃ b, answer = .error (.bug b) := by
  rcases h.cases_of_numbered v hnum with
    ⟨_, -, -, hsucceed, -⟩ | ⟨_, e, heq, hpatient, hsettled, -⟩ | ⟨_, _, _, e, heq, hfast, -⟩ |
      ⟨_, heq, -⟩
  · rcases hpanics with ⟨u, hu, hp⟩
    exact absurd (hsucceed u hu) hp.not_succeeds
  · -- an aggregate would have needed the reports that are missing
    subst heq
    have hfull := h.total_le_of_patient hpatient
    rw [hsettled.length_channel v (.inl hpatient)] at hfull
    exact absurd (Task.length_heard_lt_iff.mpr hpanics) (not_lt.mpr hfull)
  · subst heq
    rcases h.genuine v hnum hfast with ⟨i, b, front, u, back, -, -, hb, hu, hfront, he, -⟩
    rcases hpolicy with hpatient | hnone
    · rw [hfast] at hpatient
      cases hpatient
    · exact absurd ⟨front, u, back, hu, hfront, _, he⟩ (hnone b (List.mem_of_getElem? hb))
  · exact ⟨_, heq⟩

end Share

/-- Both batches of a pair are sent, the first one panics, the second one runs to its end, and the
caller takes the only report and finds that no other can come. -/
def Task.pairPanicMoves : List (Action Unit Nat) :=
  List.replicate 5 (.move (.caller 0)) ++ List.replicate 4 (.move (.worker 0)) ++
    List.replicate 5 (.move (.worker 1)) ++ List.replicate 2 (.move (.caller 0))

namespace Engine

variable {threads : Nat} {t : Task κ α} {e : Engine κ α (History κ α)}

/-- A call returns.  It is stopped for want of reports if and only if some unit panics and either
the policy is best effort or no batch comes to a failure.  It then tells how many units there are
and how many of them are in front of the panics, the same numbers in every run. -/
theorem worker_stopped_iff (hnum : t.Numbered) (h : e.Serves threads t) :
    Inevitable (step? History.note) (fun e => e.isReturned t.call = true) e ∧
    ∀ answer, e.answer? t.call = some answer →
      ((∃ b : Bug, answer = .error (.bug b) ∧ b.code = "E-EXEC-001") ↔
        (∃ u ∈ t.units, u.Panics) ∧
          (t.policy = .bestEffort ∨ ∀ b ∈ t.batches, ¬ b.Falters)) ∧
      ∀ b, answer = .error (.bug b) → b = .workerStopped t.queryId t.heard.length t.total := by
  refine ⟨h.return_inevitable, ?_⟩
  intro answer ha
  rcases h.answered ha with ⟨s, -, v, hanswered⟩
  refine ⟨⟨?_, ?_⟩, ?_⟩
  · rintro ⟨b, rfl, -⟩
    refine ⟨hanswered.panics_of_bug v hnum, ?_⟩
    cases hp : t.policy with
    | bestEffort => exact .inl rfl
    | failFast =>
        right
        rintro b' hb' ⟨front, u, back, hu, hfront, hfails⟩
        -- such a batch would have brought a failure
        rcases hanswered.failure_of_batch v hnum hp hb' hu hfront hfails with ⟨err, hne⟩
        cases hne
  · rintro ⟨hpanics, hpolicy⟩
    rcases hanswered.bug_of_panics v hnum hpanics hpolicy with ⟨b, rfl⟩
    exact ⟨b, rfl, by rw [hanswered.bug_eq v hnum]; rfl⟩
  · rintro b rfl
    exact hanswered.bug_eq v hnum

theorem worker_stopped_pair : ∃ e : Engine Unit Nat (History Unit Nat),
    e.Serves 2 (.pair .failFast .panic (.value 5)) ∧
      e.answer? 0 = some (.error (.bug (.workerStopped 1 1 2))) ∧
      ∀ b ∈ (Task.pair .failFast .panic (.value 5)).batches, ¬ b.Falters := by
  obtain ⟨e, hrun, hanswer⟩ : ∃ e, Task.pairPanicMoves.foldlM (act? History.note)
      ((Engine.new 2 []).start (Task.pair .failFast .panic (.value 5)).start) = some e ∧
        e.answer? 0 = some (.error (.bug (.workerStopped 1 1 2))) := ⟨_, rfl, rfl⟩
  have hserves : e.Serves 2 (.pair .failFast .panic (.value 5)) := .of_moves rfl hrun
  have hread := ((worker_stopped_iff (Task.pair_numbered ..) hserves).2 _ hanswer).1
  rcases (hread.mp ⟨_, rfl, rfl⟩).2 with hpatient | hnone
  · cases hpatient
  · exact ⟨e, hserves, hanswer, hnone⟩

end Engine

end ScatterGather
