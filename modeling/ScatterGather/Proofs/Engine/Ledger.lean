import ScatterGather.Proofs.Engine.Scatter
import ScatterGather.Proofs.Partition

/-!
# Ledger — the lanes of a call, read together

The history of a call is that of its batches, shuffled.  So its reports are those of the single
lanes, and a count of all reports says of each lane how far it is.

* `Share.Valid.filterMap_perm`, `Share.Valid.channel_perm` : the history, batch by batch;
* `Share.Valid.of_done` : whatever was reported as a result is the result of a unit that had its
  turn;
* `Share.Settled` : every batch has reported all its units, or has panicked;
* `Share.Settled.complete_or_panic`, `Share.Settled.complete_of_patient`,
  `Share.Valid.complete_of_full` : where no unit can have been skipped.
-/

namespace ScatterGather

variable {κ α : Type}

/-! ## Units and lanes -/

namespace Work

def Succeeds (u : Work κ α) : Prop :=
  ∃ a, u.outcome = .value a

def Fails (u : Work κ α) : Prop :=
  ∃ e, u.outcome = .failure e

def Panics (u : Work κ α) : Prop :=
  u.outcome = .panic

instance (u : Work κ α) : Decidable u.Succeeds :=
  match h : u.outcome with
  | .value a => isTrue ⟨a, h⟩
  | .failure _ => isFalse fun ⟨_, ha⟩ => nomatch h.symm.trans ha
  | .panic => isFalse fun ⟨_, ha⟩ => nomatch h.symm.trans ha

instance (u : Work κ α) : Decidable u.Fails :=
  match h : u.outcome with
  | .failure e => isTrue ⟨e, h⟩
  | .value _ => isFalse fun ⟨_, he⟩ => nomatch h.symm.trans he
  | .panic => isFalse fun ⟨_, he⟩ => nomatch h.symm.trans he

instance (u : Work κ α) : Decidable u.Panics :=
  match h : u.outcome with
  | .panic => isTrue h
  | .value _ => isFalse fun hp => nomatch h.symm.trans hp
  | .failure _ => isFalse fun hp => nomatch h.symm.trans hp

theorem Panics.not_succeeds {u : Work κ α} (h : u.Panics) : ¬ u.Succeeds := by
  rintro ⟨a, ha⟩
  rw [h] at ha
  cases ha

theorem Fails.not_succeeds {u : Work κ α} (h : u.Fails) : ¬ u.Succeeds := by
  rcases h with ⟨e, he⟩
  rintro ⟨a, ha⟩
  rw [he] at ha
  cases ha

theorem Fails.not_panics {u : Work κ α} (h : u.Fails) : ¬ u.Panics := by
  rcases h with ⟨e, he⟩
  intro hp
  rw [hp] at he
  cases he

theorem outcome_cases (u : Work κ α) : u.Succeeds ∨ u.Fails ∨ u.Panics := by
  cases ho : u.outcome with
  | value a => exact .inl ⟨a, ho⟩
  | failure e => exact .inr (.inl ⟨e, ho⟩)
  | panic => exact .inr (.inr ho)

theorem succeeds_of_not {u : Work κ α} (hfails : ¬ u.Fails) (hpanics : ¬ u.Panics) :
    u.Succeeds := by
  rcases u.outcome_cases with h | h | h
  · exact h
  · exact absurd h hfails
  · exact absurd h hpanics

/-- The first unit that does not succeed is one and the same however it is found. -/
theorem first_failing_unique {front front' back back' : List (Work κ α)} {u u' : Work κ α}
    (hsame : front ++ u :: back = front' ++ u' :: back') (hfront : ∀ w ∈ front, w.Succeeds)
    (hu : ¬ u.Succeeds) (hfront' : ∀ w ∈ front', w.Succeeds) (hu' : ¬ u'.Succeeds) : u = u' := by
  -- it is what a search from the front finds
  have hfind (front back : List (Work κ α)) (u : Work κ α) (hfront : ∀ w ∈ front, w.Succeeds)
      (hu : ¬ u.Succeeds) : (front ++ u :: back).find? (fun w => !decide w.Succeeds) = some u := by
    refine List.find?_eq_some_iff_append.mpr ⟨by simpa using hu, front, back, rfl, ?_⟩
    intro w hw
    simpa using hfront w hw
  have hleft := hfind front back u hfront hu
  rw [hsame, hfind front' back' u' hfront' hu'] at hleft
  exact (Option.some.inj hleft).symm

theorem report?_value {u : Work κ α} {a : α} (h : u.outcome = .value a) :
    u.report? = some (.done u.position (.ok a)) := by
  simp [report?, h, Outcome.result?]

theorem report?_failure {u : Work κ α} {e : ExecutionError} (h : u.outcome = .failure e) :
    u.report? = some (.done u.position (.error e)) := by
  simp [report?, h, Outcome.result?]

theorem report?_eq_value {u : Work κ α} {position : Nat} {a : α}
    (h : u.report? = some (.done position (.ok a))) :
    u.position = position ∧ u.outcome = .value a := by
  cases ho : u.outcome with
  | value b => simpa [report?, ho, Outcome.result?] using h
  | failure e => simp [report?, ho, Outcome.result?] at h
  | panic => simp [report?, ho, Outcome.result?] at h

theorem report?_eq_failure {u : Work κ α} {position : Nat} {e : ExecutionError}
    (h : u.report? = some (.done position (.error e))) :
    u.position = position ∧ u.outcome = .failure e := by
  cases ho : u.outcome with
  | value b => simp [report?, ho, Outcome.result?] at h
  | failure f => simpa [report?, ho, Outcome.result?] using h
  | panic => simp [report?, ho, Outcome.result?] at h

end Work

namespace Lane.Account

variable {l : Lane κ α} {abort : Bool} {h : History κ α}
  {ran current skipped left : List (Work κ α)}

theorem mem_channel (ha : l.Account abort h ran current skipped left) {u : Work κ α} {r : Report α}
    (hu : u ∈ ran) (hr : u.report? = some r) : r ∈ History.channel h := by
  rw [ha.channel]
  exact List.mem_append_left _ (List.mem_filterMap.mpr ⟨u, hu, hr⟩)

/-- Whoever ran and did not report a failure has succeeded. -/
theorem succeeds_of_calm (ha : l.Account abort h ran current skipped left)
    (calm : ∀ r ∈ History.channel h, r.isFailure = false) : ∀ u ∈ ran, u.Succeeds := by
  intro u hu
  rcases u.outcome_cases with hsucceeds | ⟨e, he⟩ | hpanics
  · exact hsucceeds
  · simpa using calm _ (ha.mem_channel hu (Work.report?_failure he))
  · exact absurd hpanics (ha.reported u hu)

theorem skipped_eq_nil (ha : l.Account abort h ran current skipped left)
    (hnot : ¬ (l.policy = .failFast ∧ abort = true)) : skipped = [] := by
  by_contra hne
  exact hnot (ha.skips hne)

/-- With no unit under way, none skipped and none left, all have run. -/
theorem complete (ha : l.Account abort h ran [] [] []) :
    l.Account abort h l.units [] [] [] ∧ l.units = ran := by
  have hunits : l.units = ran := by simpa using ha.units
  exact ⟨hunits ▸ ha, hunits⟩

end Lane.Account

namespace Task

variable {t : Task κ α}

def lanes (t : Task κ α) : List (Lane κ α) :=
  t.batches.zipIdx.map fun (b, i) => t.lane i b

theorem mem_lanes {l : Lane κ α} :
    l ∈ t.lanes ↔ ∃ i b, t.batches[i]? = some b ∧ l = t.lane i b := by
  constructor
  · intro hl
    rcases List.mem_map.mp hl with ⟨⟨b, i⟩, hb, rfl⟩
    exact ⟨i, b, List.mem_zipIdx_iff_getElem?.mp hb, rfl⟩
  · rintro ⟨i, b, hb, rfl⟩
    exact List.mem_map.mpr ⟨(b, i), List.mem_zipIdx_iff_getElem?.mpr hb, rfl⟩

theorem lanes_batch (t : Task κ α) : t.lanes.map Lane.batch = List.range t.batches.length := by
  simp [lanes, lane, Function.comp_def, List.range_eq_range']

theorem lanes_units (t : Task κ α) : t.lanes.map Lane.units = t.batches.map Batch.units := by
  calc
    t.lanes.map Lane.units
        = (t.batches.zipIdx.map Prod.fst).map Batch.units := by
          simp only [lanes, lane, List.map_map, Function.comp_def]
    _ = t.batches.map Batch.units := by rw [List.zipIdx_map_fst]

theorem flatMap_lanes (t : Task κ α) : t.lanes.flatMap Lane.units = t.units := by
  rw [units, List.flatMap_def, t.lanes_units, ← List.flatMap_def]

theorem policy_of_mem {l : Lane κ α} (hl : l ∈ t.lanes) : l.policy = t.policy := by
  rcases mem_lanes.mp hl with ⟨i, b, -, rfl⟩
  rfl

theorem mem_units {l : Lane κ α} {u : Work κ α} (hl : l ∈ t.lanes) (hu : u ∈ l.units) :
    u ∈ t.units := by
  rw [← t.flatMap_lanes]
  exact List.mem_flatMap.mpr ⟨l, hl, hu⟩

end Task

namespace Share

variable {t : Task κ α} {s : Share κ α}

/-! ## Reports and starts, batch by batch -/

namespace Valid

/-- The history of a call is that of its lanes in another order. -/
theorem history_perm (v : s.Valid t) :
    (t.lanes.flatMap fun l => History.trail l.batch s.history).Perm s.history := by
  -- each occurrence bears the number of one batch, and batches have different numbers
  have hcovered : ∀ o ∈ s.history, o.site.batch ∈ t.lanes.map Lane.batch := by
    intro o ho
    rw [t.lanes_batch]
    exact List.mem_range.mpr (v.sites o ho).2
  have hdistinct : (t.lanes.map Lane.batch).Nodup := t.lanes_batch ▸ List.nodup_range
  have hparts := Partition.perm_parts (fun o : Occurrence κ α => o.site.batch) hdistinct hcovered
  rwa [List.flatMap_map] at hparts

/-- Whatever is picked out of the history, it can be picked lane by lane. -/
theorem filterMap_perm {β : Type} (v : s.Valid t) (f : Occurrence κ α → Option β)
    {part : Lane κ α → List β}
    (hpart : ∀ l ∈ t.lanes, (History.trail l.batch s.history).filterMap f = part l) :
    (s.history.filterMap f).Perm (t.lanes.flatMap part) := by
  have hperm := v.history_perm.filterMap f
  rw [List.filterMap_flatMap, List.flatMap_congr hpart] at hperm
  exact hperm.symm

theorem channel_perm (v : s.Valid t) :
    (t.lanes.flatMap fun l => History.channel (History.trail l.batch s.history)).Perm
      (History.channel s.history) :=
  (v.filterMap_perm Occurrence.report? fun _ _ => rfl).symm

/-- Every batch is somewhere on its lane, sent or not. -/
theorem lane_at (v : s.Valid t) {l : Lane κ α} (hl : l ∈ t.lanes) :
    ∃ stage rest, l.At s.call.abort stage rest (History.trail l.batch s.history) := by
  rcases Task.mem_lanes.mp hl with ⟨i, b, hb, rfl⟩
  by_cases hwait : i ∈ s.call.phase.left.map Prod.fst
  · -- a batch that is still to be sent has done nothing
    rcases List.mem_map.mp hwait with ⟨⟨i', b'⟩, hmem, rfl⟩
    have htrail : History.trail (t.lane i' b).batch s.history = [] := (v.waiting i' b' hmem).2
    rw [htrail]
    exact ⟨_, _, (t.lane i' b).at_fresh s.call.abort⟩
  · by_cases hjob : ∃ j ∈ s.jobs, j.batch = i
    · rcases hjob with ⟨j, hj, rfl⟩
      rcases v.working j hj with ⟨-, b', hb', hat⟩
      have hsame : b = b' := Option.some.inj (hb.symm.trans hb')
      subst hsame
      exact ⟨_, _, hat⟩
    · -- neither to be sent nor with a job: it is through
      have hnone : ∀ j ∈ s.jobs, j.batch ≠ i := fun j hj heq => hjob ⟨j, hj, heq⟩
      rcases v.through i b hb hwait hnone with ⟨stage, rest, hat, -⟩
      exact ⟨stage, rest, hat⟩

theorem account (v : s.Valid t) {l : Lane κ α} (hl : l ∈ t.lanes) :
    ∃ ran current skipped left,
      l.Account s.call.abort (History.trail l.batch s.history) ran current skipped left := by
  rcases v.lane_at hl with ⟨stage, rest, hat⟩
  rcases hat.account with ⟨ran, current, skipped, left, ha, -⟩
  exact ⟨ran, current, skipped, left, ha⟩

theorem positions_prefix (v : s.Valid t) {l : Lane κ α} (hl : l ∈ t.lanes) :
    (History.channel (History.trail l.batch s.history)).map Report.position <+:
      l.units.map (·.position) := by
  rcases v.account hl with ⟨ran, current, skipped, left, ha⟩
  exact ha.positions_prefix

/-- No unit is reported twice. -/
theorem positions_subperm (v : s.Valid t) :
    ((History.channel s.history).map Report.position).Subperm (t.units.map (·.position)) := by
  -- lane by lane the reports follow the units, so there are no more of them
  have hsub : (t.lanes.flatMap fun l =>
      (History.channel (History.trail l.batch s.history)).map Report.position).Sublist
        (t.lanes.flatMap fun l => l.units.map (·.position)) :=
    List.Sublist.flatMap_right t.lanes fun l hl => (v.positions_prefix hl).sublist
  have hperm := v.channel_perm.map Report.position
  rw [List.map_flatMap] at hperm
  rw [← t.flatMap_lanes, List.map_flatMap]
  exact hperm.symm.subperm.trans hsub.subperm

theorem length_channel_le (v : s.Valid t) : (History.channel s.history).length ≤ t.total := by
  simpa [Task.total] using v.positions_subperm.length_le

/-- As many reports as there are units leave none to come. -/
theorem channel_eq_of_full (v : s.Valid t) {got lost : List (Report α)}
    (hchannel : History.channel s.history = got ++ lost) (hall : got.length = t.total) :
    History.channel s.history = got := by
  have hle := v.length_channel_le
  rw [hchannel, List.length_append] at hle
  have hlost : lost = [] := List.eq_nil_of_length_eq_zero (by omega)
  rw [hchannel, hlost, List.append_nil]

theorem position_mem (v : s.Valid t) {r : Report α} (hr : r ∈ History.channel s.history) :
    r.position ∈ t.units.map (·.position) :=
  v.positions_subperm.subset (List.mem_map_of_mem hr)

/-- What was reported somewhere is in the reports of the call. -/
theorem mem_channel {l : Lane κ α} {r : Report α}
    (hr : r ∈ History.channel (History.trail l.batch s.history)) :
    r ∈ History.channel s.history :=
  (List.filter_sublist.filterMap Occurrence.report?).subset hr

/-- A result was reported by a unit that had its turn, as had all units in front of it. -/
theorem of_done (v : s.Valid t) {position : Nat} {result : Except ExecutionError α}
    (hm : .done position result ∈ History.channel s.history) :
    ∃ l ∈ t.lanes, ∃ front u back, l.units = front ++ u :: back ∧ u.position = position ∧
      u.outcome.result? = some result ∧ (∀ w ∈ front, w.Passes t.policy) ∧
      (front ++ [u]).map (·.position) <+: History.starts (History.trail l.batch s.history) := by
  rcases List.mem_flatMap.mp (v.channel_perm.mem_iff.mpr hm) with ⟨l, hl, hlane⟩
  rcases v.account hl with ⟨ran, current, skipped, left, ha⟩
  rcases ha.of_done hlane with ⟨front, u, back, hran, hposition, hresult, hfront⟩
  refine ⟨l, hl, front, u, back ++ current ++ skipped ++ left, ?_, hposition, hresult, ?_, ?_⟩
  · simp [ha.units, hran]
  · intro w hw
    exact Task.policy_of_mem hl ▸ hfront w hw
  · rw [ha.starts, hran]
    exact ⟨(back ++ current).map (·.position), by simp⟩

/-- A unit is skipped only under fail-fast. -/
theorem of_skipped (v : s.Valid t) {position : Nat}
    (hm : .skipped position ∈ History.channel s.history) : t.policy = .failFast := by
  rcases List.mem_flatMap.mp (v.channel_perm.mem_iff.mpr hm) with ⟨l, hl, hlane⟩
  rcases v.account hl with ⟨ran, current, skipped, left, ha⟩
  exact Task.policy_of_mem hl ▸ (ha.of_skipped hlane).1

/-- A failure was reported by a unit that fails. -/
theorem of_failure (v : s.Valid t) {position : Nat} {e : ExecutionError}
    (hm : .done position (.error e) ∈ History.channel s.history) :
    ∃ u ∈ t.units, u.position = position ∧ u.outcome = .failure e := by
  rcases v.of_done hm with ⟨l, hl, front, u, back, hu, hposition, hresult, -, -⟩
  refine ⟨u, Task.mem_units hl (by simp [hu]), hposition, ?_⟩
  exact (Work.report?_eq_failure (Work.report?_of_result hresult)).2

end Valid

/-! ## Settled calls -/

/-- Every batch has reported all its units, or one of them has panicked. -/
def Settled (s : Share κ α) (t : Task κ α) : Prop :=
  ∀ l ∈ t.lanes, ∃ ran current skipped left,
    l.Account s.call.abort (History.trail l.batch s.history) ran current skipped left ∧
      (current = [] ∧ left = [] ∨ skipped = [] ∧ ∃ u, current = [u] ∧ u.Panics)

/-- All units of all batches have run and have reported their results. -/
def Complete (s : Share κ α) (t : Task κ α) : Prop :=
  ∀ l ∈ t.lanes, l.Account s.call.abort (History.trail l.batch s.history) l.units [] [] []

theorem Finished.settled (h : s.Finished t) : s.Settled t := by
  intro l hl
  rcases Task.mem_lanes.mp hl with ⟨i, b, hb, rfl⟩
  rcases h i b hb with ⟨stage, rest, hat, hend⟩
  rcases hat.account with ⟨ran, current, skipped, left, ha, hdone⟩
  exact ⟨ran, current, skipped, left, ha, hdone hend⟩

/-- Reports of as many units as there are can only come from all lanes in full. -/
theorem Valid.account_of_full (v : s.Valid t)
    (hfull : (History.channel s.history).length = t.total) {l : Lane κ α} (hl : l ∈ t.lanes) :
    ∃ ran skipped,
      l.Account s.call.abort (History.trail l.batch s.history) ran [] skipped [] := by
  -- each lane has reported a prefix of its units, and together these are as long as all lanes
  have hparts : ∀ l ∈ t.lanes,
      (History.channel (History.trail l.batch s.history)).map Report.position =
        l.units.map (·.position) := by
    refine Partition.eq_part_of_length (fun l hl => (v.positions_prefix hl).sublist) ?_
    have hlength := v.channel_perm.length_eq
    rw [← List.map_flatMap, ← List.map_flatMap, List.length_map, List.length_map,
      t.flatMap_lanes, hlength, hfull]
    rfl
  rcases v.account hl with ⟨ran, current, skipped, left, ha⟩
  have hsame : (History.channel (History.trail l.batch s.history)).length = l.units.length := by
    simpa using congrArg List.length (hparts l hl)
  -- then no unit of the lane is under way and none is left
  have hnone := ha.length_channel
  have hcurrent : current = [] := List.eq_nil_of_length_eq_zero (by omega)
  have hleft : left = [] := List.eq_nil_of_length_eq_zero (by omega)
  subst hcurrent hleft
  exact ⟨ran, skipped, ha⟩

theorem Valid.settled_of_full (v : s.Valid t)
    (hfull : (History.channel s.history).length = t.total) : s.Settled t := by
  intro l hl
  rcases v.account_of_full hfull hl with ⟨ran, skipped, ha⟩
  exact ⟨ran, [], skipped, [], ha, .inl ⟨rfl, rfl⟩⟩

namespace Settled

/-- A unit that fails and has started in a settled call has reported its failure. -/
theorem mem_failure (h : s.Settled t) {l : Lane κ α} (hl : l ∈ t.lanes)
    {front back : List (Work κ α)} {u : Work κ α} {e : ExecutionError}
    (hu : l.units = front ++ u :: back) (he : u.outcome = .failure e)
    (hlt : front.length < (History.starts (History.trail l.batch s.history)).length) :
    .done u.position (.error e) ∈ History.channel s.history := by
  rcases h l hl with ⟨ran, current, skipped, left, ha, hend⟩
  have hran : u ∈ ran := by
    rcases List.mem_append.mp (ha.mem_started hu hlt) with hran | hcurrent
    · exact hran
    · -- the unit is not the one under way, for that one panics
      rcases hend with ⟨hnil, -⟩ | ⟨-, w, hw, hpanics⟩
      · simp [hnil] at hcurrent
      · rw [hw, List.mem_singleton] at hcurrent
        rw [hcurrent, hpanics] at he
        cases he
  exact Valid.mem_channel (ha.mem_channel hran (Work.report?_failure he))

/-- The flag is down in a settled call that has no failure among its reports. -/
theorem abort_eq_false (h : s.Settled t) (v : s.Valid t)
    (calm : ∀ r ∈ History.channel s.history, r.isFailure = false) : s.call.abort = false := by
  -- a raised flag has a unit behind it that has started and fails
  by_contra hraised
  rcases v.raised (by simpa using hraised) with ⟨-, i, b, front, u, back, e, hb, hu, he, hlt⟩
  have hl : t.lane i b ∈ t.lanes := Task.mem_lanes.mpr ⟨i, b, hb, rfl⟩
  simpa using calm _ (h.mem_failure hl hu he hlt)

/-- In a settled call without a report of a failure nothing was skipped: each batch has run
through, or a panic has stopped it. -/
theorem complete_or_panic (h : s.Settled t) (v : s.Valid t)
    (calm : ∀ r ∈ History.channel s.history, r.isFailure = false) {l : Lane κ α}
    (hl : l ∈ t.lanes) :
    (l.Account s.call.abort (History.trail l.batch s.history) l.units [] [] [] ∧
        ∀ u ∈ l.units, u.Succeeds) ∨
      ∃ front u back, l.units = front ++ u :: back ∧ (∀ w ∈ front, w.Succeeds) ∧ u.Panics := by
  rcases h l hl with ⟨ran, current, skipped, left, ha, hend⟩
  have hran := ha.succeeds_of_calm fun r hr => calm r (Valid.mem_channel hr)
  have hskipped : skipped = [] := ha.skipped_eq_nil (by simp [h.abort_eq_false v calm])
  subst hskipped
  rcases hend with ⟨rfl, rfl⟩ | ⟨-, u, rfl, hpanics⟩
  · exact .inl ⟨ha.complete.1, ha.complete.2 ▸ hran⟩
  · exact .inr ⟨ran, u, left, by simpa using ha.units, hran, hpanics⟩

/-- Where all units succeed none is skipped. -/
theorem complete_of_succeeds (h : s.Settled t) (v : s.Valid t)
    (hall : ∀ u ∈ t.units, u.Succeeds) : s.Complete t := by
  have hcalm : ∀ r ∈ History.channel s.history, r.isFailure = false := by
    intro r hr
    -- a report of a failure comes from a unit that fails
    by_contra hfails
    rcases Report.isFailure_iff.mp (by simpa using hfails) with ⟨position, e, rfl⟩
    rcases v.of_failure hr with ⟨u, hu, -, he⟩
    exact Work.Fails.not_succeeds ⟨e, he⟩ (hall u hu)
  intro l hl
  rcases h.complete_or_panic v hcalm hl with ⟨ha, -⟩ | ⟨front, u, back, hu, -, hpanics⟩
  · exact ha
  · exact absurd (hall u (Task.mem_units hl (by simp [hu]))) hpanics.not_succeeds

/-- Under best effort no unit is ever skipped. -/
theorem complete_of_patient (h : s.Settled t) (hpolicy : t.policy = .bestEffort)
    (calm : ∀ u ∈ t.units, ¬ u.Panics) : s.Complete t := by
  intro l hl
  rcases h l hl with ⟨ran, current, skipped, left, ha, hend⟩
  have hskipped : skipped = [] :=
    ha.skipped_eq_nil (by simp [Task.policy_of_mem hl, hpolicy])
  subst hskipped
  rcases hend with ⟨rfl, rfl⟩ | ⟨-, u, rfl, hpanics⟩
  · exact ha.complete.1
  · have hu : u ∈ l.units := by simp [ha.units]
    exact absurd hpanics (calm u (Task.mem_units hl hu))

end Settled

/-- All reports, and no failure among them: nothing was skipped and everything has succeeded. -/
theorem Valid.complete_of_full (v : s.Valid t)
    (hfull : (History.channel s.history).length = t.total)
    (calm : ∀ r ∈ History.channel s.history, r.isFailure = false) :
    s.Complete t ∧ ∀ u ∈ t.units, u.Succeeds := by
  -- the flag was never raised, so nothing was skipped on any lane
  have hdown : s.call.abort = false := (v.settled_of_full hfull).abort_eq_false v calm
  have hlanes : ∀ l ∈ t.lanes, l.Account s.call.abort (History.trail l.batch s.history)
      l.units [] [] [] ∧ ∀ u ∈ l.units, u.Succeeds := by
    intro l hl
    rcases v.account_of_full hfull hl with ⟨ran, skipped, ha⟩
    have hskipped : skipped = [] := ha.skipped_eq_nil (by simp [hdown])
    subst hskipped
    have hran := ha.succeeds_of_calm fun r hr => calm r (Valid.mem_channel hr)
    exact ⟨ha.complete.1, ha.complete.2 ▸ hran⟩
  refine ⟨fun l hl => (hlanes l hl).1, ?_⟩
  intro u hu
  rw [← t.flatMap_lanes] at hu
  rcases List.mem_flatMap.mp hu with ⟨l, hl, hul⟩
  exact (hlanes l hl).2 u hul

/-- All reports under best effort: no unit was skipped. -/
theorem Valid.complete_of_full_patient (v : s.Valid t)
    (hfull : (History.channel s.history).length = t.total) (hpolicy : t.policy = .bestEffort) :
    s.Complete t := by
  intro l hl
  rcases v.account_of_full hfull hl with ⟨ran, skipped, ha⟩
  have hskipped : skipped = [] := ha.skipped_eq_nil (by simp [Task.policy_of_mem hl, hpolicy])
  subst hskipped
  exact ha.complete.1

/-- All that a batch has done are effects of its units. -/
theorem Valid.mem_lane_effects (v : s.Valid t) {l : Lane κ α} (hl : l ∈ t.lanes) {x : κ}
    (hx : x ∈ History.effects (History.trail l.batch s.history)) :
    ∃ u ∈ l.units, x ∈ u.effects := by
  rcases v.account hl with ⟨ran, current, skipped, left, ha⟩
  rcases ha.effects with ⟨begun, heffects, hbegun⟩
  -- the unit has run, or it is under way
  have hmem : x ∈ (ran ++ current).flatMap (·.effects) := by
    rw [heffects] at hx
    rw [List.flatMap_append]
    rcases List.mem_append.mp hx with hran | hunder
    · exact List.mem_append_left _ hran
    · exact List.mem_append_right _ (hbegun.subset hunder)
  rcases List.mem_flatMap.mp hmem with ⟨u, hu, hxu⟩
  exact ⟨u, ha.started_prefix.subset hu, hxu⟩

/-- All that a call has done are effects of its units, each on the lane of its unit. -/
theorem Valid.exists_lane (v : s.Valid t) {x : κ} (hx : x ∈ History.effects s.history) :
    ∃ l ∈ t.lanes, x ∈ History.effects (History.trail l.batch s.history) ∧
      ∃ u ∈ l.units, x ∈ u.effects := by
  rcases List.mem_filterMap.mp hx with ⟨o, ho, hox⟩
  rcases List.mem_flatMap.mp (v.history_perm.mem_iff.mpr ho) with ⟨l, hl, hol⟩
  have hlane : x ∈ History.effects (History.trail l.batch s.history) :=
    List.mem_filterMap.mpr ⟨o, hol, hox⟩
  exact ⟨l, hl, hlane, v.mem_lane_effects hl hlane⟩

theorem Valid.mem_effects (v : s.Valid t) {x : κ} (hx : x ∈ History.effects s.history) :
    ∃ u ∈ t.units, x ∈ u.effects := by
  rcases v.exists_lane hx with ⟨l, hl, -, u, hu, hxu⟩
  exact ⟨u, Task.mem_units hl hu, hxu⟩

namespace Complete

theorem channel_perm (h : s.Complete t) (v : s.Valid t) :
    (History.channel s.history).Perm (t.units.filterMap Work.report?) := by
  rw [← t.flatMap_lanes, List.filterMap_flatMap]
  apply v.filterMap_perm Occurrence.report?
  intro l hl
  have hchannel := (h l hl).channel
  rwa [List.map_nil, List.append_nil] at hchannel

/-- No unit has panicked. -/
theorem calm (h : s.Complete t) : ∀ u ∈ t.units, ¬ u.Panics := by
  intro u hu
  rw [← t.flatMap_lanes] at hu
  rcases List.mem_flatMap.mp hu with ⟨l, hl, hul⟩
  exact (h l hl).reported u hul

theorem lane_starts (h : s.Complete t) {l : Lane κ α} (hl : l ∈ t.lanes) :
    History.starts (History.trail l.batch s.history) = l.units.map (·.position) := by
  have hstarts := (h l hl).starts
  rwa [List.append_nil] at hstarts

theorem lane_effects (h : s.Complete t) {l : Lane κ α} (hl : l ∈ t.lanes) :
    History.effects (History.trail l.batch s.history) = l.units.flatMap (·.effects) := by
  rcases (h l hl).effects with ⟨begun, heffects, hnone⟩
  -- no unit is under way that could have begun
  rw [List.flatMap_nil, List.prefix_nil] at hnone
  rwa [hnone, List.append_nil] at heffects

/-- Every unit has started, and none twice. -/
theorem starts_perm (h : s.Complete t) (v : s.Valid t) :
    (History.starts s.history).Perm (t.units.map (·.position)) := by
  rw [← t.flatMap_lanes, List.map_flatMap]
  exact v.filterMap_perm Occurrence.start? fun _ hl => h.lane_starts hl

/-- All effects of all units have been performed. -/
theorem effects_perm (h : s.Complete t) (v : s.Valid t) :
    (History.effects s.history).Perm (t.units.flatMap (·.effects)) := by
  rw [← t.flatMap_lanes, List.flatMap_assoc]
  exact v.filterMap_perm Occurrence.effect? fun _ hl => h.lane_effects hl

end Complete

end Share

end ScatterGather
