import ScatterGather.Proofs.Engine.Returns
import ScatterGather.Proofs.Pool.Counts

/-!
# Rest — how every run of an engine ends

Whatever the units do, callers and workers make a bounded number of moves, and where none is left
all calls have returned, all jobs are over and counted, and all workers wait for the next job.  A
panic takes no worker away.

* `Engine.AtRest` : the state in which everything has ended;
* `Engine.Counted` : the counters of the pool, with the callers that have still to count a job;
* `Engine.stuck_iff_atRest` : nothing else can be in the way of the next move;
* `Engine.run_ends_at_rest` : so every run is finite, and every run that cannot go on ends there.
-/

namespace ScatterGather

variable {κ α ω : Type}

namespace Call

/-- The jobs that the caller has sent and not counted. -/
def uncounted (c : Call κ α) : Nat :=
  match c.phase with
  | .counting _ => 1
  | _ => 0

theorem uncounted_of_phase {c c' : Call κ α} (h : c'.phase = c.phase) :
    c'.uncounted = c.uncounted := by
  simp [uncounted, h]

@[simp] theorem uncounted_new (policy : Policy) (queryId : Nat) (batches : List (Batch κ α)) :
    (Call.new policy queryId batches).uncounted = 0 := by
  by_cases hzero : (batches.flatMap (·.units)).length = 0
  · simp only [uncounted, new, hzero, if_true]
  · simp only [uncounted, new, hzero, if_false]

theorem uncounted_of_returned {c : Call κ α} (h : c.isReturned = true) : c.uncounted = 0 := by
  cases hp : c.phase <;> simp_all [isReturned, uncounted]

end Call

namespace Engine

/-- All calls have returned, all jobs are over and counted, and all workers wait. -/
structure AtRest (threads : Nat) (e : Engine κ α ω) : Prop where
  returned : ∀ k, e.isReturned k = true
  queue : e.pool.queue = []
  workers : e.pool.workers = List.replicate threads .idle
  uncounted : e.pool.uncounted = 0
  completed : e.pool.completed = e.pool.submitted

/-- What the counters of the pool say holds of its jobs and of the callers. -/
structure Counted (threads : Nat) (e : Engine κ α ω) : Prop where
  pool : e.pool.Counted
  callers : e.pool.uncounted = weight Call.uncounted e.calls
  threads : e.pool.threads = threads

variable {note : Occurrence κ α → ω → ω} {e e' : Engine κ α ω} {threads : Nat}

/-! ## Counters -/

/-- A caller leaves the pool alone, sends a job that it has still to count, or counts the one that
it has sent. -/
theorem callerStep?_pool {k : Nat} (h : e.callerStep? k = some e') :
    ∃ c c', e.calls[k]? = some c ∧ e'.calls = e.calls.set k c' ∧
      ((c.uncounted = 0 ∧ c'.uncounted = 0 ∧ e'.pool = e.pool) ∨
        (c.uncounted = 0 ∧ c'.uncounted = 1 ∧ ∃ j, e'.pool = e.pool.send j) ∨
        (c.uncounted = 1 ∧ c'.uncounted = 0 ∧ e'.pool = e.pool.tally)) := by
  cases hc : e.calls[k]? with
  | none => simp [callerStep?, hc] at h
  | some c =>
      rcases c with ⟨policy, queryId, total, phase, abort, inbox, slots, first, failed, received⟩
      simp only [callerStep?, hc, Option.bind_eq_bind, Option.bind_some] at h
      cases phase with
      | submitting left =>
          cases left with
          | nil =>
              cases h
              exact ⟨_, _, rfl, rfl, .inl ⟨rfl, rfl, rfl⟩⟩
          | cons b left =>
              cases h
              exact ⟨_, _, rfl, rfl, .inr (.inl ⟨rfl, rfl, _, rfl⟩)⟩
      | counting left =>
          cases h
          exact ⟨_, _, rfl, rfl, .inr (.inr ⟨rfl, rfl, rfl⟩)⟩
      | gathering =>
          cases inbox with
          | nil =>
              cases hr : e.hasReporter k with
              | true => simp [hr] at h
              | false =>
                  simp only [hr, Bool.false_eq_true, if_false] at h
                  cases h
                  exact ⟨_, _, rfl, rfl, .inl ⟨rfl, rfl, rfl⟩⟩
          | cons r rest =>
              cases h
              refine ⟨_, _, rfl, rfl, .inl ⟨rfl, ?_, rfl⟩⟩
              rcases Call.gather_phase (⟨policy, queryId, total, .gathering, abort, rest, slots,
                first, failed, received⟩ : Call κ α) r with ⟨hphase, -⟩ | ⟨answer, hphase, -⟩ <;>
                simp [Call.uncounted, hphase]
      | returned answer => cases h
      | «over» => cases h

/-- A worker changes no phase. -/
theorem workerStep?_callers {w : Nat} (h : e.step? note (.worker w) = some e') :
    weight Call.uncounted e'.calls = weight Call.uncounted e.calls := by
  rcases workerStep?_turn h with
    ⟨hcalls, -⟩ | ⟨j, others, p, c, c', os, -, hc, hturn, hcalls, -⟩
  · rw [hcalls]
  · have hset := weight_set Call.uncounted hc c'
    rw [Call.uncounted_of_phase hturn.phase_eq, ← hcalls] at hset
    exact Nat.add_right_cancel hset

theorem counted_new (threads : Nat) (world : ω) :
    (Engine.new threads world : Engine κ α ω).Counted (max threads 1) :=
  ⟨Pool.counted_new threads, rfl, List.length_replicate ..⟩

namespace Counted

theorem step {m : Move} (h : e.Counted threads) (hstep : e.step? note m = some e') :
    e'.Counted threads := by
  rcases h with ⟨hpool, hcallers, hthreads⟩
  cases m with
  | caller k =>
      rcases callerStep?_pool hstep with
        ⟨c, c', hc, hcalls, ⟨hold, hnew, hsame⟩ | ⟨hold, hnew, j, hsent⟩ | ⟨hold, hnew, htally⟩⟩
      all_goals
        have hset := weight_set Call.uncounted hc c'
        rw [hold, hnew, ← hcalls] at hset
      · exact ⟨hsame ▸ hpool, by rw [hsame]; omega, hsame ▸ hthreads⟩
      · exact ⟨hsent ▸ hpool.send j, by rw [hsent]; simp only [Pool.send]; omega, hsent ▸ hthreads⟩
      · -- the caller has sent the job that it counts
        have hpos : 0 < e.pool.uncounted := by omega
        exact ⟨htally ▸ hpool.tally hpos, by rw [htally]; simp only [Pool.tally]; omega,
          htally ▸ hthreads⟩
  | worker w =>
      have hcalls := workerStep?_callers hstep
      simp only [step?, Option.map_eq_some_iff] at hstep
      rcases hstep with ⟨⟨pool, calls, world⟩, hwork, rfl⟩
      have hshift := Pool.work?_shift hwork
      exact ⟨hshift.counted hpool, by rw [hcalls, ← hcallers]; exact hshift.uncounted_eq,
        hshift.threads_eq.trans hthreads⟩

theorem act {a : Action κ α} (h : e.Counted threads) (hact : e.act? note a = some e') :
    e'.Counted threads := by
  cases a with
  | begin policy queryId batches =>
      cases hact
      exact ⟨h.pool, by simpa [Engine.start] using h.callers, h.threads⟩
  | move m => exact h.step hact
  | collect n =>
      rcases Option.map_eq_some_iff.mp hact with ⟨⟨answer, e₁⟩, hcollect, rfl⟩
      rcases collect_eq_some hcollect with ⟨c, hc, hp, rfl⟩
      -- a call whose answer is collected has nothing to count
      have hset := weight_set Call.uncounted hc { c with phase := .over }
      have hold : c.uncounted = 0 := by simp [Call.uncounted, hp]
      have hnew : ({ c with phase := .over } : Call κ α).uncounted = 0 := rfl
      rw [hold, hnew] at hset
      exact ⟨h.pool, h.callers.trans (by simpa [setCall] using hset.symm), h.threads⟩

end Counted

/-! ## Rest -/

theorem isReturned_of_all (h : e.calls.all Call.isReturned = true) (k : Nat) :
    e.isReturned k = true := by
  cases hc : e.calls[k]? with
  | none => simp [isReturned, hc]
  | some c => simpa [isReturned, hc] using List.all_eq_true.mp h c (List.mem_of_getElem? hc)

theorem AtRest.stuck (h : e.AtRest threads) (hs : e.pool.Serving) : Stuck (step? note) e := by
  intro m
  cases m with
  | caller k =>
      have hreturned := h.returned k
      cases hc : e.calls[k]? with
      | none => simp [step?, callerStep?, hc]
      | some c => cases hp : c.phase <;> simp_all [step?, callerStep?, isReturned, Call.isReturned]
  | worker w =>
      have hidle : ∀ x ∈ e.pool.workers, x = .idle := by
        intro x hx
        rw [h.workers] at hx
        exact (List.mem_replicate.mp hx).2
      simp [step?, Pool.stuck_of_resting hs.isOpen h.queue hidle]

/-- Whoever cannot move has nothing left to do. -/
theorem stuck_iff_atRest (hs : e.pool.Serving) (hcounted : e.Counted threads) :
    Stuck (step? note) e ↔ e.AtRest threads := by
  refine ⟨fun hstuck => ?_, fun h => h.stuck hs⟩
  have hreturned : ∀ k, e.isReturned k = true := by
    intro k
    by_contra hk
    have hmoves : ∃ m e', e.step? note m = some e' := exists_step? hs hk
    simp [hstuck _] at hmoves
  have hworkers : ∀ w, e.pool.work? (advance note) (e.calls, e.world) w = none := by
    intro w
    have hnone : e.step? note (.worker w) = none := hstuck (.worker w)
    simpa [step?] using hnone
  rcases Pool.resting_of_stuck hs hworkers with ⟨hqueue, hidle⟩
  -- nobody who has returned is about to count a job
  have huncounted : e.pool.uncounted = 0 := by
    rw [hcounted.callers]
    apply weight_eq_zero
    intro c hc
    rcases List.getElem?_of_mem hc with ⟨k, hk⟩
    exact Call.uncounted_of_returned (by simpa [isReturned, hk] using hreturned k)
  refine ⟨hreturned, hqueue, hcounted.threads ▸ hidle, huncounted, ?_⟩
  exact hcounted.pool.completed_eq hqueue (by rw [hidle]; simp) huncounted

/-! ## Runs -/

variable {t : Task κ α}

theorem Serves.run {e : Engine κ α (History κ α)} (h : e.Serves threads t) :
    Run (act? History.note) (Engine.new threads []) e := by
  rcases h with ⟨e₀, hpast, -, hrun⟩
  have hbegin : e₀.act? History.note (.begin t.policy t.queryId t.batches) =
      some (e₀.start t.start) := rfl
  exact (hpast.snoc hbegin).trans hrun

/-- Callers and workers make at most as many moves as the cost tells.  As long as the call has not
returned some move is possible, and none is if and only if everything has come to its end: the call
has returned, every job that was submitted is over, and every worker waits for the next one. -/
theorem run_ends_at_rest {e : Engine κ α (History κ α)} (h : e.Serves threads t) :
    (∀ (ms : List Move) e', ms.foldlM (step? History.note) e = some e' → ms.length ≤ e.cost) ∧
    ∀ e', Run (step? History.note) e e' →
      (e'.isReturned t.call = false → ∃ m e'', e'.step? History.note m = some e'') ∧
      (Stuck (step? History.note) e' ↔ e'.AtRest (max threads 1)) := by
  refine ⟨?_, ?_⟩
  · intro ms e' hmoves
    have hle := Run.length_le (P := fun _ => True) cost (fun _ _ => trivial)
      (fun _ hstep => step?_cost hstep) trivial hmoves
    omega
  · intro e' hrun
    have hserving : e'.pool.Serving :=
      Run.preserves (P := fun e => e.pool.Serving) step?_serving hrun h.inService.serving
    have hcounted : e'.Counted (max threads 1) :=
      Run.preserves Counted.step hrun
        (Run.preserves Counted.act h.run (counted_new threads []))
    refine ⟨fun hk => ?_, stuck_iff_atRest hserving hcounted⟩
    exact exists_step? hserving fun hr => Bool.false_ne_true (hk.symm.trans hr)

/-- One worker takes both batches of a pair, first the one that panics. -/
def pairAloneMoves : List Move :=
  List.replicate 5 (.caller 0) ++ List.replicate 11 (.worker 0) ++ List.replicate 2 (.caller 0)

theorem run_ends_at_rest_pair : ∃ e e' : Engine Unit Nat (History Unit Nat),
    e.Serves 1 (.pair .failFast .panic (.value 5)) ∧
      pairAloneMoves.foldlM (step? History.note) e = some e' ∧ pairAloneMoves.length ≤ e.cost ∧
      e'.pool.panicked = 1 ∧ e'.AtRest 1 ∧ Stuck (step? History.note) e' := by
  have hmoves : (pairAloneMoves.foldlM (step? History.note)
      ((Engine.new 1 []).start (Task.pair .failFast .panic (.value 5)).start)).map
        (fun e' => (e'.pool, e'.calls.all Call.isReturned)) =
          some (⟨[], [.idle], 0, 2, 2, 1, false⟩, true) := rfl
  rcases Option.map_eq_some_iff.mp hmoves with ⟨e', hmoves, hend⟩
  rcases Prod.mk.inj hend with ⟨hpool, hreturned⟩
  have hrest : e'.AtRest 1 := by
    refine ⟨isReturned_of_all hreturned, ?_, ?_, ?_, ?_⟩ <;> rw [hpool]
    rfl
  have hserves : Serves 1 (.pair .failFast .panic (.value 5)) _ := ⟨_, .refl, rfl, .refl⟩
  have hread := run_ends_at_rest hserves
  exact ⟨_, e', hserves, hmoves, hread.1 _ _ hmoves, by rw [hpool], hrest,
    (hread.2 _ (.of_moves hmoves)).2.mpr hrest⟩

end Engine

end ScatterGather
