import ScatterGather.Proofs.Engine.Turn
import ScatterGather.Proofs.Pool.Progress
import ScatterGather.Proofs.Run

/-!
# Progress — every call of an open engine returns

Whatever moves pays for it: `Engine.cost` counts the steps that jobs and callers have still to make,
and each step makes one of them.  And as long as a call has not returned somebody can move: a
worker if there is a job, and else the caller, who then need not wait for a report.

* `Engine.step?_cost` : every step lowers the cost;
* `Engine.exists_step?` : no state before the return of a call is stuck;
* `Engine.return_inevitable` : so the call returns, whoever moves when.
-/

namespace ScatterGather

variable {κ α ω : Type}

open Engine

/-! ## Cost -/

namespace Job.Turn

variable {j : Job κ α} {c c' : Call κ α} {p : Progress (Job κ α)} {os : History κ α}

/-- A step of a job is worth more than what is left of the job and the report that it sends. -/
theorem cost_lt (h : j.Turn c p c' os) :
    p.cost jobCost + (History.channel os).length < jobCost j := by
  have hchannel (s : Site) (r : Report α) :
      (History.channel [(.reported s r : Occurrence κ α)]).length = 1 := rfl
  have hbegun (s : Site) : (History.channel [(.begun s : Occurrence κ α)]).length = 0 := rfl
  have hperformed (s : Site) (x : κ) :
      (History.channel [(.performed s x : Occurrence κ α)]).length = 0 := rfl
  have hnil : (History.channel ([] : History κ α)).length = 0 := rfl
  cases h with
  | done hs hr => simp only [Progress.cost, jobCost, hnil]; omega
  | skip hs hr =>
      simp only [Progress.cost, jobCost, stageCost, hs, hr, weight_cons, unitCost, hnil]
      omega
  | start hs hr =>
      simp only [Progress.cost, jobCost, stageCost, hs, hr, weight_cons, unitCost, hbegun]
      omega
  | perform hs =>
      simp only [Progress.cost, jobCost, stageCost, hs, List.length_cons, hperformed]
      omega
  | succeed hs | fail hs =>
      simp only [Progress.cost, jobCost, stageCost, hs, List.length_nil, hnil]
      omega
  | panic hs =>
      simp only [Progress.cost, jobCost, stageCost, hs, List.length_nil, hnil]
      omega
  | @report u result hs =>
      -- the report is one step for the caller, the job has paid two for it
      have hafter : stageCost (.afterReport c.policy result : Stage κ α) = 0 := by
        cases result with
        | ok a => rfl
        | error e => cases hp : c.policy <;> rfl
      have hbefore : jobCost j = 2 + weight unitCost j.rest + 3 := by
        simp only [jobCost, hs, stageCost]
      simp only [Progress.cost, hbefore, hchannel]
      simp only [jobCost, hafter]
      omega
  | reportSkip hs =>
      simp only [Progress.cost, jobCost, stageCost, hs, hchannel]
      omega
  | drain hs hr =>
      simp only [Progress.cost, jobCost, stageCost, hs, hr, weight_cons, unitCost, hchannel]
      omega
  | drained => simp only [Progress.cost, jobCost, hnil]; omega
  | depart => simp only [Progress.cost, jobCost, hnil]; omega

/-- What a job sends is left to its caller to take. -/
theorem callCost_eq (h : j.Turn c p c' os) :
    callCost c' = callCost c + (History.channel os).length := by
  have hinbox : c'.inbox = c.inbox ++ History.channel os := by rw [h.call_eq]
  simp only [callCost, h.phase_eq, hinbox, List.length_append]
  omega

end Job.Turn

namespace Call

theorem Turn.cost_lt {k : Nat} {quiet : Prop} {c c' : Call κ α} {new : List (Job κ α)}
    (h : c.Turn k quiet c' new) :
    callCost c' + weight (fun j => jobCost j + 1) new < callCost c := by
  cases h with
  | submit hp =>
      simp only [callCost, hp, weight_cons, weight_nil, jobCost, Job.ofBatch, stageCost, batchCost]
      omega
  | count hp =>
      simp only [callCost, hp, weight_nil]
      omega
  | listen hp =>
      simp only [callCost, hp, weight_nil]
      omega
  | @gather r rest hp hi =>
      -- taking the last report drops what else there is, which costs nothing
      have hbefore : callCost c = rest.length + 2 := by
        simp only [callCost, hp, hi, List.length_cons]
      rcases gather_phase { c with inbox := rest } r with
        ⟨hphase, hinbox⟩ | ⟨answer, hphase, hinbox⟩
      · have hgathering := hphase.trans hp
        rw [hbefore]
        simp only [callCost, hgathering, hinbox, weight_nil]
        omega
      · rw [hbefore]
        simp only [callCost, hphase, hinbox, List.length_nil, weight_nil]
        omega
  | stop hp hi =>
      simp only [callCost, finish, hp, List.length_nil, weight_nil]
      omega

end Call

theorem Pool.Fed.cost_eq {ι : Type} {p p' : Pool ι} {new : List ι} (h : p.Fed new p')
    (size : ι → Nat) :
    p'.cost size = p.cost size + weight (fun job => size job + 1) new := by
  cases h with
  | same => simp
  | counted => simp [Pool.cost, Pool.tally]
  | sent job =>
      simp only [Pool.cost, Pool.send, weight_append, weight_cons, weight_nil]
      omega

namespace Engine

variable {note : Occurrence κ α → ω → ω} {e e' : Engine κ α ω} {m : Move}

theorem callerStep?_cost {k : Nat} (h : e.callerStep? k = some e') : e'.cost < e.cost := by
  rcases callerStep?_turn h with ⟨c, c', new, hc, hturn, hcalls, hfed, -⟩
  have hset := weight_set callCost hc c'
  have hpool := hfed.cost_eq jobCost
  have hlt := hturn.cost_lt
  simp only [cost, hcalls]
  omega

theorem workerStep?_cost {w : Nat} (h : e.step? note (.worker w) = some e') :
    e'.cost < e.cost := by
  simp only [step?, Option.map_eq_some_iff] at h
  rcases h with ⟨⟨pool, calls, world⟩, hwork, rfl⟩
  rcases (Pool.work?_shift hwork).cost_cases jobCost with
    ⟨hlt, hsame⟩ | ⟨j, p, -, hadv, hcost⟩
  · cases hsame
    simp only [cost]
    omega
  · cases hc : e.calls[j.call]? with
    | none =>
        simp only [advance, hc] at hadv
        cases hadv
        -- a job without a call is dropped with all that was left of it
        have hjob : 3 ≤ jobCost j := by simp [jobCost]
        simp only [cost, Progress.cost] at hcost ⊢
        omega
    | some c =>
        rcases hstep : j.advance History.note c [] with ⟨p', c', os⟩
        simp only [advance, hc, j.advance_eq_replay note, hstep] at hadv
        cases hadv
        -- what the job sends moves from its account to that of its caller
        have hset := weight_set callCost hc c'
        have hjob := (Job.advance_turn hstep).cost_lt
        have hcall := (Job.advance_turn hstep).callCost_eq
        simp only [cost]
        omega

theorem step?_cost (h : e.step? note m = some e') : e'.cost < e.cost := by
  cases m with
  | caller k => exact callerStep?_cost h
  | worker w => exact workerStep?_cost h

/-! ## Progress -/

theorem step?_serving (hs : e.pool.Serving) (h : e.step? note m = some e') :
    e'.pool.Serving := by
  cases m with
  | caller k =>
      rcases callerStep?_turn h with ⟨c, c', new, -, -, -, hfed, -⟩
      exact hfed.serving hs
  | worker w =>
      simp only [step?, Option.map_eq_some_iff] at h
      rcases h with ⟨⟨pool, calls, world⟩, hwork, rfl⟩
      exact (Pool.work?_shift hwork).serving hs

/-- A caller waits only for its jobs. -/
theorem exists_callerStep? {k : Nat} {c : Call κ α} (hc : e.calls[k]? = some c)
    (hl : c.isReturned = false) (hjobs : e.pool.jobs = 0) : ∃ e', e.callerStep? k = some e' := by
  have hquiet : e.hasReporter k = false := jobsOf_eq_zero.mp (by simp [jobsOf, hjobs])
  cases hp : c.phase with
  | submitting left => cases left <;> simp [callerStep?, hc, hp]
  | counting left => simp [callerStep?, hc, hp]
  | gathering => cases hi : c.inbox <;> simp [callerStep?, hc, hp, hi, hquiet]
  | returned answer => simp [Call.isReturned, hp] at hl
  | «over» => simp [Call.isReturned, hp] at hl

theorem exists_step? {k : Nat} (hs : e.pool.Serving) (hk : ¬ e.isReturned k = true) :
    ∃ m e', e.step? note m = some e' := by
  by_cases hjobs : e.pool.jobs = 0
  · -- no jobs: the caller can move, for nobody keeps it waiting
    cases hc : e.calls[k]? with
    | none => simp [isReturned, hc] at hk
    | some c =>
        rcases exists_callerStep? hc (by simpa [isReturned, hc] using hk) hjobs with ⟨e', he⟩
        exact ⟨.caller k, e', he⟩
  · -- some job: a worker can
    rcases Pool.exists_work? (advance note) (e.calls, e.world) hs hjobs with
      ⟨w, pool, ⟨calls, world⟩, hwork⟩
    exact ⟨.worker w, { pool, calls, world }, by simp [step?, hwork]⟩

theorem return_inevitable (hs : e.pool.Serving) (k : Nat) :
    Inevitable (step? note) (fun e => e.isReturned k = true) e :=
  Inevitable.of_progress (P := fun e => e.pool.Serving) cost step?_serving
    (fun _ h => step?_cost h) exists_step? hs

end Engine

end ScatterGather
