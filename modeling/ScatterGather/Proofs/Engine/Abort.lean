import Mathlib.Data.List.Infix
import ScatterGather.Proofs.Engine.Answer
import ScatterGather.Proofs.Engine.Service

/-!
# Abort — what a failure keeps from running

Under fail-fast the first unit that fails raises the flag of its call, and from then on no unit of
the call starts.  A batch that looked at the flag in time still runs the unit that it has started,
so it is at most one unit further than it was.  Under best effort the flag stays down and nobody is
kept from running.

* `Batch.Began` : the units that a batch has started, and what they have done so far;
* `Batch.HasFailed` : the last of them has failed;
* `Share.Step.starts_eq` : where the flag is up no step starts a unit;
* `Share.Valid.hasFailed_of_raise` : the step that raises the flag is that of a unit that fails;
* `Engine.abort_stops_batches` : so a failure stops all batches, each at the unit under way.
-/

namespace ScatterGather

variable {κ α : Type}

/-! ## Batches under way -/

namespace Batch

/-- The units `started` of a batch have started, one after the other.  All but the last of them
have performed their effects, and the last one has performed some of its own. -/
structure Began (b : Batch κ α) (h : History κ α) (started : List (Work κ α)) : Prop where
  units : started <+: b.units
  starts : History.starts h = started.map (·.position)
  passed : started.dropLast.flatMap (·.effects) <+: History.effects h
  effects : History.effects h <+: started.flatMap (·.effects)

/-- The last unit that the batch has started is one that fails, and it has come to its end. -/
def HasFailed (b : Batch κ α) (h : History κ α) : Prop :=
  ∃ front u, u.Fails ∧ b.Began h (front ++ [u]) ∧
    History.effects h = (front ++ [u]).flatMap (·.effects)

variable {b : Batch κ α} {h h' : History κ α} {started started' : List (Work κ α)}

/-- Units start in the order of the batch, so their number says which they are. -/
theorem Began.unique (hb : b.Began h started) (hb' : b.Began h' started')
    (hstarts : History.starts h' = History.starts h) : started' = started := by
  have hlength : started'.length = started.length := by
    simpa [hb.starts, hb'.starts] using congrArg List.length hstarts
  rw [List.prefix_iff_eq_take.mp hb'.units, List.prefix_iff_eq_take.mp hb.units, hlength]

/-- A batch that has failed has nothing more to do as long as it starts no other unit. -/
theorem HasFailed.effects_eq (hfailed : b.HasFailed h) (hb : b.Began h' started)
    (hstarts : History.starts h' = History.starts h)
    (hmore : History.effects h <+: History.effects h') :
    History.effects h' = History.effects h := by
  rcases hfailed with ⟨front, u, -, hbegan, heffects⟩
  have hsame : started = front ++ [u] := hbegan.unique hb hstarts
  have hle : History.effects h' <+: History.effects h := by
    rw [heffects, ← hsame]
    exact hb.effects
  exact hle.eq_of_length_le hmore.length_le

theorem HasFailed.later (hfailed : b.HasFailed h) (hb : b.Began h' started)
    (hstarts : History.starts h' = History.starts h)
    (hmore : History.effects h <+: History.effects h') : b.HasFailed h' := by
  have hsame := hfailed.effects_eq hb hstarts hmore
  rcases hfailed with ⟨front, u, hu, hbegan, heffects⟩
  exact ⟨front, u, hu, hbegan.unique hb hstarts ▸ hb, hsame.trans heffects⟩

end Batch

namespace Lane

variable {t : Task κ α} {i : Nat} {b : Batch κ α} {abort : Bool} {h : History κ α}

theorem Account.began {ran current skipped left : List (Work κ α)}
    (ha : (t.lane i b).Account abort h ran current skipped left) : b.Began h (ran ++ current) := by
  rcases ha.effects with ⟨begun, heffects, hbegun⟩
  -- all but the last of the units that started have run
  have hran : (ran ++ current).dropLast <+: ran := by
    rcases ha.under_way with rfl | ⟨u, rfl, -⟩
    · simpa using ran.dropLast_prefix
    · simp
  refine ⟨ha.started_prefix, ha.starts, ?_, ?_⟩
  · rw [heffects]
    exact (hran.flatMap _).trans (List.prefix_append _ _)
  · rw [heffects, List.flatMap_append]
    exact (List.prefix_append_right_inj _).mpr hbegun

/-- A unit with no effect left to perform, and bound to fail, is the last one of its batch. -/
theorem At.hasFailed {u : Work κ α} {rest : List (Work κ α)}
    (hat : (t.lane i b).At abort (.running u []) rest h) (hu : u.Fails) : b.HasFailed h := by
  cases hat with
  | @running ran _ _ performed _ units passes effects =>
      rw [List.append_nil] at effects
      subst effects
      refine ⟨ran, u, hu, ⟨?_, by simp, by simp, by simp⟩, by simp⟩
      have hunits : b.units = ran ++ u :: rest := units
      exact ⟨rest, by simp [hunits]⟩

/-- A failure is reported when the flag is up already. -/
theorem At.abort_of_failure {l : Lane κ α} {stage : Stage κ α} {rest : List (Work κ α)}
    (hat : l.At abort stage rest h) (hfast : l.policy = .failFast) {position : Nat}
    {e : ExecutionError} (hm : .done position (.error e) ∈ History.channel h) : abort = true := by
  -- units that let the next one run report no failure
  have hnone (ran skipped : List (Work κ α)) (hpasses : ∀ u ∈ ran, u.Passes l.policy) :
      .done position (.error e) ∉ ran.filterMap Work.report? ++ skipped.map Work.skip := by
    intro hm
    rcases List.mem_append.mp hm with hm | hm
    · rcases List.mem_filterMap.mp hm with ⟨u, hu, hreport⟩
      rcases (hfast ▸ hpasses u hu).value with ⟨a, ha⟩
      rw [Work.report?_value ha] at hreport
      cases hreport
    · rcases List.mem_map.mp hm with ⟨u, -, hskip⟩
      cases hskip
  cases hat with
  | checking units passes skips => exact absurd (by simpa using hm) (hnone _ _ passes)
  | skipping units passes skips => exact skips.2
  | running units passes effects => exact absurd (by simpa using hm) (hnone _ [] passes)
  | reporting units passes outcome raised => exact absurd (by simpa using hm) (hnone _ [] passes)
  | draining units passes failure aborts => exact aborts.2

end Lane

/-! ## The flag -/

theorem Call.Turn.abort_eq {k : Nat} {quiet : Prop} {c c' : Call κ α} {new : List (Job κ α)}
    (ht : c.Turn k quiet c' new) : c'.abort = c.abort := by
  cases ht with
  | submit | count | listen | stop => rfl
  | gather hp hi => exact (Call.gather_frame _ _).2.2.2

/-- A job that finds the flag up starts no unit. -/
theorem Job.Turn.starts_eq_nil {j : Job κ α} {c c' : Call κ α} {p : Progress (Job κ α)}
    {os : History κ α} (ht : j.Turn c p c' os) (hfast : c.policy = .failFast)
    (habort : c.abort = true) : History.starts os = [] := by
  cases ht with
  | start hs hr hp => simp [hp hfast] at habort
  | done | skip | perform | succeed | fail | panic | report | reportSkip | drain | drained
      | depart => rfl

namespace Share

variable {t : Task κ α} {s s' : Share κ α}

/-- Some batch has failed. -/
def HasFailed (s : Share κ α) (t : Task κ α) : Prop :=
  ∃ (i : Nat) (b : Batch κ α), t.batches[i]? = some b ∧ b.HasFailed (History.trail i s.history)

theorem Step.history_grows {k : Nat} (hstep : s.Step k s') : s.history <+: s'.history := by
  cases hstep with
  | call | collect => exact List.prefix_rfl
  | work hj ht => exact List.prefix_append _ _

/-- Once the flag is up it stays up, and no unit starts. -/
theorem Step.starts_eq {k : Nat} (hstep : s.Step k s') (hfast : s.call.policy = .failFast)
    (habort : s.call.abort = true) : s'.call.abort = true ∧
      ∀ i, History.starts (History.trail i s'.history) =
        History.starts (History.trail i s.history) := by
  cases hstep with
  | call ht => exact ⟨ht.abort_eq.trans habort, fun _ => rfl⟩
  | collect => exact ⟨habort, fun _ => rfl⟩
  | @work j others p c os hj ht =>
      refine ⟨ht.abort_mono habort, fun i => ?_⟩
      have hsub : (History.starts (History.trail i os)).Sublist (History.starts os) :=
        List.filter_sublist.filterMap Occurrence.start?
      rw [ht.starts_eq_nil hfast habort, List.sublist_nil] at hsub
      rw [History.trail_append, History.starts_append, hsub, List.append_nil]

namespace Valid

/-- Every batch has started some of its units, and under fail-fast none behind a failure. -/
theorem began (v : s.Valid t) {i : Nat} {b : Batch κ α} (hb : t.batches[i]? = some b) :
    ∃ started, b.Began (History.trail i s.history) started ∧
      (t.policy = .failFast → ∀ u ∈ started.dropLast, ¬ u.Fails) := by
  rcases v.account (Task.mem_lanes.mpr ⟨i, b, hb, rfl⟩) with ⟨ran, current, skipped, left, ha⟩
  refine ⟨ran ++ current, ha.began, ?_⟩
  intro hfast u hu hfails
  have hpasses : u.Passes .failFast := hfast ▸ ha.passes u hu
  exact hfails.not_succeeds hpasses.value

/-- The flag goes up when a unit has failed. -/
theorem hasFailed_of_raise (v : s.Valid t) (hstep : s.Step t.call s')
    (hdown : s.call.abort = false) (hup : s'.call.abort = true) : s'.HasFailed t := by
  have hnot : s'.call.abort ≠ s.call.abort := by simp [hdown, hup]
  cases hstep with
  | call ht => exact absurd ht.abort_eq hnot
  | collect => exact absurd rfl hnot
  | @work j others p c os hj ht =>
      rcases v.working j (by simp [hj]) with ⟨-, b, hb, hat⟩
      cases ht with
      | @fail u e hs hu =>
          rw [hs] at hat
          exact ⟨j.batch, b, hb, by simpa using hat.hasFailed ⟨e, hu⟩⟩
      | done | skip | start | perform | succeed | panic | report | reportSkip | drain | drained
          | depart => exact absurd rfl hnot

/-- A raised flag has a batch behind it that has failed.  As no unit has started since, this is
how the batch stays. -/
theorem hasFailed_step (v : s.Valid t) (hstep : s.Step t.call s')
    (h : s.call.abort = true → s.HasFailed t) (hup : s'.call.abort = true) : s'.HasFailed t := by
  cases hdown : s.call.abort with
  | false => exact v.hasFailed_of_raise hstep hdown hup
  | true =>
      rcases h hdown with ⟨i, b, hb, hfailed⟩
      rcases (v.step hstep).began hb with ⟨started, hbegan, -⟩
      have hfast : s.call.policy = .failFast := v.policy.trans (v.raised hdown).1
      have hmore := (hstep.history_grows.filter fun o => o.site.batch == i).filterMap
        Occurrence.effect?
      exact ⟨i, b, hb, hfailed.later hbegan ((hstep.starts_eq hfast hdown).2 i) hmore⟩

/-- Whoever hears of a failure under fail-fast hears of it when the flag is up. -/
theorem abort_of_failure (v : s.Valid t) (hfast : t.policy = .failFast) {position : Nat}
    {e : ExecutionError} (hm : .done position (.error e) ∈ History.channel s.history) :
    s.call.abort = true := by
  rcases List.mem_flatMap.mp (v.channel_perm.mem_iff.mpr hm) with ⟨l, hl, hlane⟩
  rcases v.lane_at hl with ⟨stage, rest, hat⟩
  exact hat.abort_of_failure ((Task.policy_of_mem hl).trans hfast) hlane

end Valid

/-- Under best effort, and with no panics, a call whose values have slots runs all its units. -/
theorem Answered.complete_or_outOfRange {answer : Answer α} (h : s.Answered t answer)
    (v : s.Valid t) (hpolicy : t.policy = .bestEffort) (calm : ∀ u ∈ t.units, ¬ u.Panics) :
    s.Complete t ∨
      ∃ position, answer = .error (.bug (.positionOutOfRange position t.total)) := by
  -- as many reports as there are units settle the call
  have hfull {got lost : List (Report α)} (hchannel : History.channel s.history = got ++ lost)
      (hall : got.length = t.total) : s.Complete t :=
    v.complete_of_full_patient (by rw [v.channel_eq_of_full hchannel hall, hall]) hpolicy
  cases h with
  | verdict verdict channel =>
      cases verdict with
      | complete all _ _ => exact .inl (hfull channel all)
      | aggregate _ all _ _ => exact .inl (hfull channel all)
      | failure fast _ =>
          rw [hpolicy] at fast
          cases fast
      | outOfRange out => exact .inr ⟨_, rfl⟩
  | stopped stopped => exact .inl (stopped.finished.settled.complete_of_patient hpolicy calm)

end Share

/-! ## Engines -/

namespace Engine

/-- Whether the flag of a call is up. -/
def isAborted {ω : Type} (e : Engine κ α ω) (call : Nat) : Bool :=
  (e.calls[call]?.map Call.abort).getD false

/-- All that has happened to one batch of a call. -/
def trailOf (e : Engine κ α (History κ α)) (call batch : Nat) : History κ α :=
  History.trail batch (e.historyOf call)

variable {threads : Nat} {t : Task κ α} {e e' : Engine κ α (History κ α)}

theorem trailOf_eq {s : Share κ α} {call : Nat} (h : s.history = e.historyOf call) (batch : Nat) :
    e.trailOf call batch = History.trail batch s.history := by
  rw [trailOf, h]

theorem Serves.later (h : e.Serves threads t) (hrun : Run (act? History.note) e e') :
    e'.Serves threads t := by
  rcases h with ⟨e₀, hpast, hcall, hbegun⟩
  exact ⟨e₀, hpast, hcall, hbegun.trans hrun⟩

theorem Serves.valid_of_abort (h : e.Serves threads t) : ∃ s, e.share? t.call = some s ∧
    s.Valid t ∧ (s.call.abort = true → s.HasFailed t) := by
  refine h.share (P := fun s => s.Valid t ∧ (s.call.abort = true → s.HasFailed t)) ?_ ?_
  · exact ⟨Share.Valid.start t, by simp [Task.start, Call.new]⟩
  · rintro s s' ⟨v, hfailed⟩ hstep
    exact ⟨v.step hstep, v.hasFailed_step hstep hfailed⟩

/-- Where the flag is up no unit starts any more. -/
theorem starts_eq_of_run {s : Share κ α} (hs : e.share? t.call = some s) (v : s.Valid t)
    (habort : s.call.abort = true) (hrun : Run (act? History.note) e e') :
    ∃ s', e'.share? t.call = some s' ∧ s'.Valid t ∧ s.history <+: s'.history ∧
      ∀ i, History.starts (History.trail i s'.history) =
        History.starts (History.trail i s.history) := by
  have hfast : t.policy = .failFast := (v.raised habort).1
  have hkept := share?_run (k := t.call) (P := fun s' => s'.Valid t ∧ s'.call.abort = true ∧
    s.history <+: s'.history ∧ ∀ i, History.starts (History.trail i s'.history) =
      History.starts (History.trail i s.history)) ?_ hrun
      ⟨s, hs, v, habort, List.prefix_rfl, fun _ => rfl⟩
  · rcases hkept with ⟨s', hs', v', -, hgrown, hstarts⟩
    exact ⟨s', hs', v', hgrown, hstarts⟩
  · rintro s₁ s₂ ⟨v₁, hup, hgrown, hstarts⟩ hstep
    rcases hstep.starts_eq (v₁.policy.trans hfast) hup with ⟨hup', hsame⟩
    exact ⟨v₁.step hstep, hup', hgrown.trans hstep.history_grows,
      fun i => (hsame i).trans (hstarts i)⟩

/-- A batch runs its units in their order, each once at most, and under fail-fast none behind one
that fails.  Once the flag is up, which a failure brings about, a batch that has failed does
nothing more, and any other does what is left of the unit that it has started.  Under best effort
the flag is never up, no unit is skipped, and a call with no panics that comes to its answer has run
all its units, unless a value had no slot. -/
theorem abort_stops_batches (h : e.Serves threads t) (hlater : Run (act? History.note) e e') :
    (∀ (i : Nat) (b : Batch κ α), t.batches[i]? = some b →
      ∃ started, b.Began (e.trailOf t.call i) started ∧
        (t.policy = .failFast → ∀ u ∈ started.dropLast, ¬ u.Fails)) ∧
    (t.policy = .failFast → ∀ position err,
      .done position (.error err) ∈ History.channel (e.historyOf t.call) →
        e.isAborted t.call = true) ∧
    (e.isAborted t.call = true →
      (∃ (i : Nat) (b : Batch κ α), t.batches[i]? = some b ∧ b.HasFailed (e.trailOf t.call i)) ∧
      ∀ (i : Nat) (b : Batch κ α), t.batches[i]? = some b →
        ∃ started, b.Began (e.trailOf t.call i) started ∧ b.Began (e'.trailOf t.call i) started ∧
          (b.HasFailed (e.trailOf t.call i) → History.effects (e'.trailOf t.call i) =
          History.effects (e.trailOf t.call i))) ∧
    (t.policy = .bestEffort → e.isAborted t.call = false ∧
      (∀ position, .skipped position ∉ History.channel (e.historyOf t.call)) ∧
      ((∀ u ∈ t.units, ¬ u.Panics) → ∀ answer, e.answer? t.call = some answer →
        (∃ position, answer = .error (.bug (.positionOutOfRange position t.total))) ∨
        ∀ (i : Nat) (b : Batch κ α), t.batches[i]? = some b →
          History.starts (e.trailOf t.call i) = b.units.map (·.position) ∧
          History.effects (e.trailOf t.call i) = b.units.flatMap (·.effects))) := by
  rcases h.valid_of_abort with ⟨s, hs, v, hfailed⟩
  rcases share?_eq_some.mp hs with ⟨hcall, -, hhistory⟩
  have hflag : e.isAborted t.call = s.call.abort := by simp [isAborted, hcall]
  have htrail := trailOf_eq hhistory
  have hchannel : History.channel (e.historyOf t.call) = History.channel s.history := by
    rw [hhistory]
    rfl
  refine ⟨?_, ?_, ?_, ?_⟩
  · intro i b hb
    rw [htrail]
    exact v.began hb
  · intro hfast position err hm
    rw [hflag]
    exact v.abort_of_failure hfast (hchannel ▸ hm)
  · intro hup
    rw [hflag] at hup
    rcases starts_eq_of_run hs v hup hlater with ⟨s', hs', v', hgrown, hstarts⟩
    have htrail' := trailOf_eq (share?_eq_some.mp hs').2.2
    simp only [htrail, htrail']
    refine ⟨hfailed hup, ?_⟩
    intro i b hb
    rcases v.began hb with ⟨started, hbegan, -⟩
    rcases v'.began hb with ⟨started', hbegan', -⟩
    -- as many units have started as before, so they are the same
    have hsame : started' = started := hbegan.unique hbegan' (hstarts i)
    subst hsame
    have hmore := (hgrown.filter fun o => o.site.batch == i).filterMap Occurrence.effect?
    exact ⟨started', hbegan, hbegan', fun hf => hf.effects_eq hbegan' (hstarts i) hmore⟩
  · intro hpatient
    refine ⟨?_, ?_, ?_⟩
    · rw [hflag]
      by_contra hup
      rw [(v.raised (by simpa using hup)).1] at hpatient
      cases hpatient
    · intro position hm
      rw [v.of_skipped (hchannel ▸ hm)] at hpatient
      cases hpatient
    · intro calm answer ha
      rcases h.answered ha with ⟨s₁, hhistory₁, v₁, hanswered⟩
      rcases hanswered.complete_or_outOfRange v₁ hpatient calm with hcomplete | hout
      · right
        intro i b hb
        have hl : t.lane i b ∈ t.lanes := Task.mem_lanes.mpr ⟨i, b, hb, rfl⟩
        rw [trailOf_eq hhistory₁]
        exact ⟨hcomplete.lane_starts hl, hcomplete.lane_effects hl⟩
      · exact .inl hout

end Engine

namespace Task

/-- Two batches of two units each, the first unit of the first batch being one that fails. -/
def crossing : Task Char Nat :=
  { call := 0
    policy := .failFast
    queryId := 1
    batches :=
      [⟨⟨0, "left"⟩, [⟨0, ['a'], .failure (.unit 0 "left" "")⟩, ⟨1, ['b'], .value 0⟩]⟩,
        ⟨⟨1, "right"⟩, [⟨2, ['c', 'd'], .value 5⟩, ⟨3, ['e'], .value 7⟩]⟩] }

/-- Both batches have started their first units when that of the first one fails. -/
def crossingMoves : List (Action Char Nat) :=
  List.replicate 5 (.move (.caller 0)) ++ List.replicate 3 (.move (.worker 0)) ++
    List.replicate 3 (.move (.worker 1)) ++ [.move (.worker 0)]

/-- The second batch runs to its end. -/
def crossingRest : List (Action Char Nat) :=
  List.replicate 7 (.move (.worker 1))

end Task

namespace Engine

theorem abort_stops_batches_crossing : ∃ e e' : Engine Char Nat (History Char Nat),
    e.Serves 2 .crossing ∧ Run (act? History.note) e e' ∧ e.isAborted 0 = true ∧
      History.effects (e.trailOf 0 1) = ['c'] ∧ History.effects (e'.trailOf 0 1) = ['c', 'd'] ∧
      ∀ b, Task.crossing.batches[1]? = some b →
        ∃ started, b.Began (e.trailOf 0 1) started ∧ b.Began (e'.trailOf 0 1) started := by
  have hmoves : (Task.crossingMoves.foldlM (act? History.note)
      ((Engine.new 2 []).start Task.crossing.start)).bind (fun e =>
        (Task.crossingRest.foldlM (act? History.note) e).map fun e' =>
          (e.isAborted 0, History.effects (e.trailOf 0 1), History.effects (e'.trailOf 0 1))) =
      some (true, ['c'], ['c', 'd']) := rfl
  rcases Option.bind_eq_some_iff.mp hmoves with ⟨e, hfirst, hmoves⟩
  rcases Option.map_eq_some_iff.mp hmoves with ⟨e', hrest, hseen⟩
  simp only [Prod.mk.injEq] at hseen
  rcases hseen with ⟨haborted, hearlier, hlater⟩
  have hserves : e.Serves 2 .crossing := .of_moves rfl hfirst
  have hrun : Run (act? History.note) e e' := .of_moves hrest
  have hread := ((abort_stops_batches hserves hrun).2.2.1 haborted).2 1
  refine ⟨e, e', hserves, hrun, haborted, hearlier, hlater, ?_⟩
  intro b hb
  rcases hread b hb with ⟨started, hbegan, hbegan', -⟩
  exact ⟨started, hbegan, hbegan'⟩

end Engine

end ScatterGather
