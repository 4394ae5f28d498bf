import Mathlib.Data.Bool.Count
import ScatterGather.Proofs.Session.Receipts
import ScatterGather.Proofs.Session.Waiting

/-!
# Accounting — the metrics of a session and the answers of its calls

Every call is answered at most once, and then it is over for the engine.  Of a call with values, or
with an aggregate, all units have been run and none has panicked, so the answer tells what its units
have added to the metrics.

* `Engine.IsOver` : calls whose answer was taken, for good;
* `Opened.Attests`, `Journal.Tells.attests` : what an answer says of the units of its call;
* `Session.Booked`, `Session.Booked.step` : every receipt is one of a call of its own that is over;
* `Session.metrics_account` : the metrics of a session without jobs, series by series.
-/

namespace ScatterGather

/-! ## Calls that are over -/

namespace Engine

variable {κ α ω : Type} {note : Occurrence κ α → ω → ω} {e e' : Engine κ α ω} {k n : Nat}

/-- The answer of the call was taken. -/
def IsOver (e : Engine κ α ω) (k : Nat) : Prop :=
  ∃ c, e.calls[k]? = some c ∧ c.phase = .over

theorem isOver_congr (h : e'.calls = e.calls) : e'.IsOver k ↔ e.IsOver k := by
  rw [IsOver, IsOver, h]

theorem isOver_set {c c' : Call κ α} (hc : e.calls[n]? = some c)
    (hcalls : e'.calls = e.calls.set n c') :
    e'.IsOver k ↔ if n = k then c'.phase = .over else e.IsOver k := by
  by_cases hnk : n = k
  · subst hnk
    simp [IsOver, hcalls, (List.getElem?_eq_some_iff.mp hc).1]
  · simp [IsOver, hcalls, List.getElem?_set_ne hnk, hnk]

theorem isOver_iff {c : Call κ α} (hc : e.calls[k]? = some c) :
    e.IsOver k ↔ c.phase = .over := by
  simp [IsOver, hc]

theorem isOver_start {c : Call κ α} (hc : c.phase ≠ .over) :
    (e.start c).IsOver k ↔ e.IsOver k := by
  rcases Nat.lt_trichotomy k e.calls.length with hlt | heq | hgt
  · simp [IsOver, start, List.getElem?_append_left hlt]
  · subst heq
    simp [IsOver, start, hc]
  · have hnone : (e.calls ++ [c])[k]? = none := List.getElem?_eq_none (by simp; omega)
    have hnone' : e.calls[k]? = none := List.getElem?_eq_none (by omega)
    simp [IsOver, start, hnone, hnone']

/-- No move of the engine takes an answer. -/
theorem isOver_step {m : Move} (h : e.step? note m = some e') : e'.IsOver k ↔ e.IsOver k := by
  cases m with
  | caller n =>
      rcases callerStep?_turn h with ⟨c, c', new, hc, hturn, hcalls, -⟩
      rw [isOver_set hc hcalls]
      by_cases hnk : n = k
      · -- a caller that moves is not over, neither before nor after
        subst hnk
        rw [if_pos rfl, isOver_iff hc]
        exact iff_of_false hturn.phase_ne_over hturn.not_over
      · rw [if_neg hnk]
  | worker w =>
      rcases workerStep?_turn h with
        ⟨hcalls, -⟩ | ⟨job, others, p, c, c', os, -, hc, hturn, hcalls, -⟩
      · exact isOver_congr hcalls
      · rw [isOver_set hc hcalls]
        by_cases hjk : job.call = k
        · rw [if_pos hjk, ← hjk, isOver_iff hc, hturn.phase_eq]
        · rw [if_neg hjk]

end Engine

/-! ## What answers tell -/

/-- All units of a call have started, all have returned, and so many of them a failure. -/
structure Opened.Attests (o : Opened) (b : Backend) (k : Nat) (past : History Effect Output)
    (failures : Nat) : Prop where
  exhausted : o.Exhausted k past
  returned : (o.returns b o.units).length = o.executor.route.length
  failed : (o.returns b o.units).count false = failures

namespace Journal.Tells

variable {β : Type} {s : Session β} {j : Journal} {threads k : Nat} {o : Opened}

/-- An answer that speaks of all units is right about them. -/
theorem attests (h : j.Tells threads s) (ho : j.calls[k]? = some o) {r : Receipt} {n : Nat}
    (ha : s.engine.answer? k = some r.answer) (hn : r.failures? = some n) :
    o.Attests s.backend k j.past n := by
  have hcases := Answer.failures?_eq_some hn
  rcases h.complete_of_answered ho ha (hcases.imp And.left fun ⟨e, he⟩ => ⟨e, n, he⟩) with
    ⟨sh, hhistory, v, hanswered, hcomplete⟩
  have hnum := h.task_numbered ho
  have hcalm : ∀ u ∈ o.units.map (o.assignment.work s.backend), ¬ u.Panics :=
    o.task_units s.backend k ▸ hcomplete.calm
  rcases Opened.returns_of_calm hcalm with ⟨hlength, hcount⟩
  rw [← o.task_units s.backend k] at hcount
  refine ⟨?_, ?_, ?_⟩
  · -- every batch has started all its units
    intro g i hg u hu
    have hstarts : History.starts (History.trail i (History.ofCall k j.past)) =
        (g.units.map (o.assignment.work s.backend)).map (·.position) :=
      hhistory ▸ hcomplete.lane_starts (Opened.mem_lanes s.backend k hg)
    rw [hstarts]
    exact List.mem_map_of_mem (List.mem_map_of_mem hu)
  · rcases h.grouped o (List.mem_of_getElem? ho) with ⟨w, w', hg⟩
    have htotal := (Task.numbered_of_groups (t := o.task s.backend k) rfl hg).2
    rw [Task.total, o.task_units, List.length_map] at htotal
    exact hlength.trans htotal
  · -- with values no unit has failed, and an aggregate counts those that have
    rw [hcount]
    rcases hcases with ⟨hok, rfl⟩ | ⟨e, he⟩
    · have hsucceed := (hanswered.ok_iff v hnum).mp hok
      apply List.countP_eq_zero.mpr
      intro u hu hfails
      exact (of_decide_eq_true hfails).not_succeeds (hsucceed u hu).2
    · rw [he] at hanswered
      exact hanswered.countP_fails v hnum (o.task_plain s.backend k)

/-- What a call has added of which the answer speaks of all units. -/
theorem added_of_attests (h : j.Tells threads s) (ho : j.calls[k]? = some o)
    (hquiet : s.engine.jobs = []) {n : Nat} (ha : o.Attests s.backend k j.past n) :
    j.added k (.units o.issue.kind false) = n ∧
      j.added k (.units o.issue.kind true) + n = o.executor.route.length := by
  have hnone : s.engine.hasReporter k = false := by
    simp [Engine.hasReporter, hquiet]
  have hadded (success : Bool) : j.added k (.units o.issue.kind success) =
      (o.returns s.backend o.units).count success := by
    have hkind : o.assignment.kind = o.issue.kind := rfl
    rw [h.added_of_quiet ho hnone, if_pos hkind, ha.exhausted.ran_eq]
  rw [hadded, hadded, ha.failed]
  refine ⟨rfl, ?_⟩
  rw [← ha.failed, List.count_true_add_count_false, ha.returned]

end Journal.Tells

namespace Session

variable {β : Type} {s s' : Session β} {j : Journal} {rs : List Receipt} {m : Step β}
  {threads : Nat}

/-- The receipt of a call of its own that is over, with all that its answer tells. -/
structure Booked (s : Session β) (j : Journal) (rs : List Receipt) : Prop where
  once : (rs.filterMap Receipt.call).Nodup
  answered : ∀ k, k ∈ rs.filterMap Receipt.call ↔ s.engine.IsOver k
  page : ∀ r ∈ rs, ∀ k, r.call = some k → ∃ o, j.calls[k]? = some o ∧ r.kind = o.issue.kind ∧
    ∀ n, r.failures? = some n → o.Attests s.backend k j.past n

namespace Booked

theorem start (threads : Nat) (backend : Backend) (executors : List Executor)
    (recorders : Nat) :
    (Session.start threads backend executors recorders : Session β).Booked .empty [] where
  once := by simp
  answered := by simp [Engine.IsOver, Session.start, Engine.new]
  page := by simp

/-- Pages and what is on them are kept. -/
theorem page_kept (h : s.Booked j rs) (hstep : s.step? m = some s') {r : Receipt} (hr : r ∈ rs)
    {k : Nat} (hk : r.call = some k) : ∃ o, (j.after s m).calls[k]? = some o ∧
      r.kind = o.issue.kind ∧
      ∀ n, r.failures? = some n → o.Attests s'.backend k (j.after s m).past n := by
  rcases h.page r hr k hk with ⟨o, ho, hkind, hattests⟩
  rw [(step?_fixed hstep).1]
  have hlt := (List.getElem?_eq_some_iff.mp ho).1
  -- pages are added behind those that are there, and so is what happens
  refine ⟨o, ?_, hkind, ?_⟩
  · cases m with
    | begin x kind =>
        rw [Journal.after, List.getElem?_append_left hlt]
        exact ho
    | engine | conclude | insert | remove | clear | setRethrow | beginSweep | sweep => exact ho
  · intro n hn
    rcases hattests n hn with ⟨hexhausted, hreturned, hfailed⟩
    cases m with
    | engine m => exact ⟨hexhausted.append _, hreturned, hfailed⟩
    | begin | conclude | insert | remove | clear | setRethrow | beginSweep | sweep =>
        exact ⟨hexhausted, hreturned, hfailed⟩

/-- A step that gives no client an answer to a call that was admitted. -/
theorem of_quiet (h : s.Booked j rs) (hstep : s.step? m = some s')
    (hcall : ∀ r ∈ s.receipt? m, r.call = none)
    (hover : ∀ k, s'.engine.IsOver k ↔ s.engine.IsOver k) :
    s'.Booked (j.after s m) (rs ++ (s.receipt? m).toList) := by
  have hcalls : (rs ++ (s.receipt? m).toList).filterMap Receipt.call =
      rs.filterMap Receipt.call := by
    rw [List.filterMap_append]
    cases hr : s.receipt? m with
    | none => simp
    | some r => simp [hcall r hr]
  refine ⟨hcalls ▸ h.once, fun k => ?_, ?_⟩
  · rw [hcalls, hover k]
    exact h.answered k
  · intro r hr k hk
    rcases List.mem_append.mp hr with hr | hr
    · exact h.page_kept hstep hr hk
    · rw [hcall r (by simpa using hr)] at hk
      cases hk

theorem step (h : s.Booked j rs) (htells : j.Tells threads s) (hstep : s.step? m = some s') :
    s'.Booked (j.after s m) (rs ++ (s.receipt? m).toList) := by
  cases m with
  | begin x kind =>
      refine h.of_quiet hstep ?_ ?_
      · intro r hr
        rcases Option.bind_eq_some_iff.mp hr with ⟨e, -, hr⟩
        split at hr <;> cases hr
        rfl
      · intro k
        cases step?_turn hstep with
        | accept grown below fresh engine issued =>
            rw [engine, Engine.isOver_start (Call.phase_new_ne_over _ _ _)]
            rfl
        | tend tended engine issued => rw [engine]; rfl
  | engine m =>
      rcases Option.map_eq_some_iff.mp hstep with ⟨e', hmove, rfl⟩
      exact h.of_quiet hstep (by simp [receipt?]) fun k => Engine.isOver_step hmove
  | conclude n =>
      rcases Option.map_eq_some_iff.mp hstep with ⟨⟨r, s₁⟩, hconclude, rfl⟩
      rcases conclude_eq_some hconclude with ⟨i, c, answer, success, hi, hc, hp, -, hs⟩
      rcases receipt?_conclude hi hc hp with ⟨ha, hreceipt⟩
      have hcalls : s₁.engine.calls = s.engine.calls.set n { c with phase := .over } := by
        rw [hs]
        rfl
      -- the call has returned and is not over yet, so it has no receipt
      have hnot : ¬ s.engine.IsOver n := by
        rw [Engine.isOver_iff hc, hp]
        simp
      refine ⟨?_, fun k => ?_, ?_⟩
      · rw [hreceipt, List.filterMap_append]
        exact List.concat_eq_append ▸ h.once.concat fun hmem => hnot ((h.answered n).mp hmem)
      · rw [hreceipt, List.filterMap_append, List.mem_append, h.answered k,
          Engine.isOver_set hc hcalls]
        by_cases hnk : n = k
        · simp [hnk]
        · simp [hnk, Ne.symm hnk]
      · intro r hr k hk
        rcases List.mem_append.mp hr with hr | hr
        · exact h.page_kept hstep hr hk
        · rw [hreceipt] at hr
          cases List.mem_singleton.mp hr
          cases hk
          rcases htells.exists_page (List.getElem?_eq_some_iff.mp hc).1 with ⟨o, ho⟩
          have hissue : i = o.issue := Option.some.inj (hi.symm.trans (htells.issue_eq ho))
          rw [(step?_fixed hstep).1]
          exact ⟨o, ho, by rw [hissue], fun n hn => htells.attests ho ha hn⟩
  | sweep i =>
      rcases sweepStep?_eq_some hstep with ⟨x, sweep, sweep', r, w, -, -, rfl⟩
      exact h.of_quiet hstep (by simp [receipt?]) fun k => .rfl
  | insert | remove | clear | setRethrow | beginSweep =>
      cases hstep
      exact h.of_quiet rfl (by simp [receipt?]) fun k => .rfl

end Booked

theorem booked_of_run {backend : Backend} {executors : List Executor} {recorders : Nat}
    (h : Run booked? ((Session.start threads backend executors recorders, .empty), [])
      ((s, j), rs)) : s.Booked j rs := by
  refine (Run.preserves (P := fun t : (Session β × Journal) × List Receipt =>
    t.1.2.Tells threads t.1.1 ∧ t.1.1.Booked t.1.2 t.2) ?_ h
    ⟨tells_start threads backend executors recorders, .start threads backend executors recorders⟩).2
  rintro ⟨⟨s, j⟩, rs⟩ ⟨⟨s', j'⟩, rs'⟩ m ⟨htells, hbooked⟩ hstep
  rcases booked?_eq_some.mp hstep with ⟨hm, rfl, rfl⟩
  exact ⟨htells.step hm, hbooked.step htells hm⟩

/-! ## Series by series -/

section

variable {backend : Backend} {executors : List Executor} {recorders : Nat}

theorem reading_units (kind : EntryPoint) (success : Bool)
    (h : Run booked? ((start threads backend executors recorders, .empty), []) ((s, j), rs)) :
    s.world.metrics.reading (.units kind success) =
      (j.calls.zipIdx.map fun p => j.added p.2 (.units kind success)).sum := by
  have htells := tells_of_run (journaled_of_booked h)
  rw [reading_of_run (by simp) h, count_samples, htells.count_series]
  simp

theorem reading_executions (kind : EntryPoint) (success : Bool)
    (h : Run booked? ((start threads backend executors recorders, .empty), []) ((s, j), rs)) :
    s.world.metrics.reading (.executions kind success) =
      rs.countP fun r => r.kind = kind ∧ r.succeeds = success := by
  rw [reading_of_run (by simp) h, count_samples, count_effects_eq_zero (by simp)]
  simp

/-- Every answer is a sample, a value or a failure. -/
theorem reading_durations (kind : EntryPoint)
    (h : Run booked? ((start threads backend executors recorders, .empty), []) ((s, j), rs)) :
    s.world.metrics.reading (.durations kind) =
      s.world.metrics.reading (.executions kind true) +
        s.world.metrics.reading (.executions kind false) := by
  have hsplit : (rs.countP fun r => r.kind = kind) =
      (rs.countP fun r => r.kind = kind ∧ r.succeeds = true) +
        rs.countP fun r => r.kind = kind ∧ r.succeeds = false := by
    clear h
    induction rs with
    | nil => rfl
    | cons r rs ih =>
        simp only [List.countP_cons, ih]
        cases r.succeeds <;> simp <;> omega
  rw [reading_executions kind true h, reading_executions kind false h, ← hsplit,
    reading_of_run (by simp) h, count_samples, count_effects_eq_zero (by simp)]
  simp

theorem reading_groups (mode : Mode)
    (h : Run booked? ((start threads backend executors recorders, .empty), []) ((s, j), rs)) :
    s.world.metrics.reading (.groups mode) =
      (j.calls.flatMap Opened.groups).countP fun g => g.mode = mode := by
  rw [reading_of_run (by simp) h, count_samples, count_effects_eq_zero (by simp)]
  simp

end

/-- Once no job is left, the series of units are at the numbers of those whose calls have returned,
values and failures apart, which is the sum of what the calls have added.  The series of calls are
at the numbers of those that were answered, and every answer is a sample of a duration.  The series
of groups are at the numbers of groups of the calls that were admitted.  A call is answered once,
when it is over for the engine; if it is answered with values, it has added all its units to one
series, and if it is answered with an aggregate, as many of them as it says to the other. -/
theorem metrics_account {backend : Backend} {executors : List Executor} {recorders : Nat}
    (hrun : Run booked? ((start threads backend executors recorders, .empty), []) ((s, j), rs))
    (hquiet : s.engine.jobs = []) :
    (∀ kind success, s.world.metrics.reading (.units kind success) =
        (j.returns s.backend kind).count success ∧
      (j.returns s.backend kind).count success =
        (j.calls.zipIdx.map fun p => j.added p.2 (.units kind success)).sum) ∧
    (∀ kind, (∀ success, s.world.metrics.reading (.executions kind success) =
        rs.countP fun r => r.kind = kind ∧ r.succeeds = success) ∧
      s.world.metrics.reading (.durations kind) =
        s.world.metrics.reading (.executions kind true) +
          s.world.metrics.reading (.executions kind false)) ∧
    (∀ mode, s.world.metrics.reading (.groups mode) =
      (j.calls.flatMap Opened.groups).countP fun g => g.mode = mode) ∧
    (rs.filterMap Receipt.call).Nodup ∧
    (∀ k, k ∈ rs.filterMap Receipt.call ↔ s.engine.IsOver k) ∧
    ∀ r ∈ rs, ∀ k, r.call = some k → ∃ o, j.calls[k]? = some o ∧ r.kind = o.issue.kind ∧
      (∀ slots, r.answer = .ok slots →
        j.added k (.units r.kind true) = o.executor.route.length ∧
        j.added k (.units r.kind false) = 0) ∧
      ∀ e n, r.answer = .error (.execution (.aggregate e n)) →
        j.added k (.units r.kind false) = n ∧
        j.added k (.units r.kind true) + n = o.executor.route.length := by
  have h := tells_of_run (journaled_of_booked hrun)
  have hbooked := booked_of_run hrun
  refine ⟨?_, ?_, fun mode => reading_groups mode hrun, hbooked.once, hbooked.answered, ?_⟩
  · intro kind success
    have hsum := h.sum_added hquiet kind success
    exact ⟨(reading_units kind success hrun).trans hsum, hsum.symm⟩
  · intro kind
    exact ⟨fun success => reading_executions kind success hrun, reading_durations kind hrun⟩
  · intro r hr k hk
    rcases hbooked.page r hr k hk with ⟨o, ho, hkind, hattests⟩
    have hadded {n : Nat} (hn : r.failures? = some n) :=
      hkind ▸ h.added_of_attests ho hquiet (hattests n hn)
    refine ⟨o, ho, hkind, ?_, ?_⟩
    · intro slots hslots
      have hnone : r.failures? = some 0 := by rw [Receipt.failures?, hslots, Answer.failures?]
      rcases hadded hnone with ⟨hfalse, htrue⟩
      exact ⟨htrue, hfalse⟩
    · intro e n haggregate
      exact hadded (by rw [Receipt.failures?, haggregate, Answer.failures?])

end Session

/-! ## An example -/

/-- The second target cannot be written. -/
def Backend.reluctant : Backend :=
  { Backend.willing with
    update := fun s =>
      if s.route.target = "ds_1" then .failure (.ofMessage "read only") else .answer none }

namespace Session

/-- An update runs under best effort until its client has the answer. -/
def reluctantSteps : List (Step Unit) :=
  .setRethrow false :: calling .update 0 0 2 21 4 ++ [.conclude 0]

theorem metrics_account_reluctant : ∃ (s : Session Unit) (j : Journal) (r : Receipt),
    Run booked? ((start 1 .reluctant [.packed] 0, .empty), []) ((s, j), [r]) ∧
      r.failures? = some 1 ∧
      s.world.metrics.reading (.executions .update true) = 0 ∧
      s.world.metrics.reading (.executions .update false) = 1 ∧
      s.world.metrics.reading (.durations .update) = 1 ∧
      s.world.metrics.reading (.units .update true) = 2 ∧
      s.world.metrics.reading (.units .update false) = 1 := by
  have hseen : ∃ t ∈ reluctantSteps.foldlM booked?
        ((start 1 .reluctant [.packed] 0, .empty), []), t.1.1.engine.jobs.length = 0 ∧
      t.2.length = 1 ∧ t.1.2.calls.length = 1 ∧ ∃ r ∈ t.2[0]?, r.call = some 0 ∧
        r.kind = .update ∧ r.failures? = some 1 ∧
        ∃ o ∈ t.1.2.calls[0]?, o.executor.route.length = 3 := by
    decide +kernel
  rcases hseen with ⟨⟨⟨s, j⟩, rs⟩, hmoves, hjobs, hone, hcalls, r, hr, hcall, hkind, hn, o, ho,
    hroute⟩
  obtain rfl : rs = [r] := by
    rcases List.length_eq_one_iff.mp hone with ⟨r', rfl⟩
    simpa using hr
  replace hcalls : j.calls = [o] := by
    rcases List.length_eq_one_iff.mp hcalls with ⟨o', ho'⟩
    rw [ho'] at ho ⊢
    simpa using ho
  obtain ⟨e, hanswer⟩ : ∃ e, r.answer = .error (.execution (.aggregate e 1)) := by
    simpa using Answer.failures?_eq_some hn
  have hrun := Run.of_moves hmoves
  rcases metrics_account hrun (List.eq_nil_of_length_eq_zero hjobs) with
    ⟨hunits, hcounts, -, -, -, hpages⟩
  rcases hpages r (List.mem_singleton_self r) 0 hcall with ⟨o', ho', -, -, haggregate⟩
  rw [hcalls, List.getElem?_cons_zero, Option.some.injEq] at ho'
  rcases haggregate e 1 hanswer with ⟨hfailed, hsucceeded⟩
  rw [← ho', hroute] at hsucceeded
  have hsum (success : Bool) : s.world.metrics.reading (.units .update success) =
      j.added 0 (.units .update success) := by
    rw [(hunits .update success).1, (hunits .update success).2, hcalls]
    simp
  have hsucceeds : r.succeeds = false := by
    rw [Receipt.succeeds, hanswer]
    rfl
  have htrue := (hcounts .update).1 true
  have hfalse := (hcounts .update).1 false
  have hdurations := (hcounts .update).2
  simp only [hkind, hsucceeds, List.countP_cons, List.countP_nil] at htrue hfalse
  rw [hkind] at hfailed hsucceeded
  refine ⟨s, j, r, hrun, hn, by simpa using htrue,
    by simpa using hfalse, ?_, ?_, (hsum false).trans hfailed⟩
  · rw [hdurations, htrue, hfalse]
    simp
  · rw [hsum]
    omega

end Session

end ScatterGather
