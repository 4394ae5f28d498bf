import ScatterGather.Proofs.Engine.Rest

/-!
# Alone — a call as it would be on a pool of its own

Take away all other calls of an engine, with their jobs and all that they have done.  What is left
is an engine that one call has to itself: a worker that is busy with a job of another call waits
there, and one that has a job to count has counted it.  Whatever happens in the shared engine then
happens in the other one as well, or leaves it as it is.

* `Occurrence.alone`, `Job.alone`, `Worker.alone` : what they are to a call that is the only one;
* `Engine.Mirrors` : an engine without all other calls;
* `Engine.Mirrors.act`, `Engine.Mirrors.run` : it follows the shared one;
* `Engine.Serves.exists_alone` : so a call does nothing that it could not do by itself;
* `Engine.actor?`, `Engine.share?_of_other` : whoever moves for another call leaves it alone.
-/

namespace ScatterGather

variable {κ α ω : Type}

/-! ## The only call -/

/-- The site in a call that has number 0. -/
def Site.alone (s : Site) : Site :=
  { s with call := 0 }

def Occurrence.alone : Occurrence κ α → Occurrence κ α
  | begun s => begun s.alone
  | performed s x => performed s.alone x
  | reported s r => reported s.alone r

/-- What has happened to call number `k`, were it the only one. -/
def History.alone (k : Nat) (h : History κ α) : History κ α :=
  (History.ofCall k h).map Occurrence.alone

def Job.alone (j : Job κ α) : Job κ α :=
  { j with call := 0 }

def Progress.alone : Progress (Job κ α) → Progress (Job κ α)
  | continues j => continues j.alone
  | ends => ends
  | panics => panics

/-- A worker that works for call number `k` only, and that counts at once. -/
def Worker.alone (k : Nat) : Worker (Job κ α) → Worker (Job κ α)
  | busy j => if j.call = k then busy j.alone else idle
  | _ => idle

namespace History

@[simp] theorem alone_append (k : Nat) (h h' : History κ α) :
    alone k (h ++ h') = alone k h ++ alone k h' := by
  simp [alone]

theorem alone_of_site {k : Nat} {h : History κ α} (hs : ∀ o ∈ h, o.site.call = k) :
    alone k h = h.map Occurrence.alone := by
  rw [alone, ofCall_of_site h hs]

theorem alone_of_ne {k : Nat} {h : History κ α} (hs : ∀ o ∈ h, o.site.call ≠ k) :
    alone k h = [] := by
  rw [alone, ofCall_of_ne h hs, List.map_nil]

end History

namespace Job

theorem report_alone (j : Job κ α) (u : Work κ α) (r : Report α) (next : Stage κ α)
    (c : Call κ α) : j.alone.report History.note u r next c [] =
      ((j.report History.note u r next c []).1.alone, (j.report History.note u r next c []).2.1,
        (j.report History.note u r next c []).2.2.map Occurrence.alone) := by
  cases hl : c.isListening with
  | true =>
      rw [report_listening hl, report_listening hl]
      rfl
  | false =>
      rw [report_departed hl, report_departed hl]
      rfl

/-- A job does not look at the number of its call. -/
theorem advance_alone (j : Job κ α) (c : Call κ α) : j.alone.advance History.note c [] =
    ((j.advance History.note c []).1.alone, (j.advance History.note c []).2.1,
      (j.advance History.note c []).2.2.map Occurrence.alone) := by
  rcases j with ⟨call, batch, connection, stage, rest⟩
  cases stage with
  | checking =>
      cases rest with
      | nil => rfl
      | cons u rest =>
          by_cases hskip : c.policy = .failFast ∧ c.abort
          · simp only [advance, alone, hskip, and_self, if_true]
            rfl
          · simp only [advance, alone, hskip, if_false]
            rfl
  | skipping u => exact report_alone _ u _ _ c
  | running u left =>
      cases left with
      | nil => cases hu : u.outcome <;> simp only [advance, alone, hu] <;> rfl
      | cons x left => rfl
  | reporting u result =>
      cases result with
      | ok a => exact report_alone _ u _ _ c
      | error e => exact report_alone _ u _ _ c
  | draining =>
      cases rest with
      | nil => rfl
      | cons u rest => exact report_alone ⟨call, batch, connection, .draining, rest⟩ u _ _ c

end Job

namespace Worker

variable {k : Nat}

theorem alone_of_call {j : Job κ α} (hj : j.call = k) : (busy j).alone k = busy j.alone :=
  if_pos hj

theorem alone_of_ne {j : Job κ α} (hj : j.call ≠ k) : (busy j).alone k = idle :=
  if_neg hj

/-- The jobs of the workers are those of the call. -/
theorem filterMap_job?_alone (workers : List (Worker (Job κ α))) :
    (workers.map (Worker.alone k)).filterMap job? =
      ((workers.filterMap job?).filter fun j => j.call == k).map Job.alone := by
  have hbusy (j : Job κ α) (workers : List (Worker (Job κ α))) :
      (busy j :: workers).filterMap job? = j :: workers.filterMap job? := rfl
  induction workers with
  | nil => rfl
  | cons x workers ih =>
      cases x with
      | busy j =>
          by_cases hj : j.call = k
          · simp only [List.map_cons, alone_of_call hj, hbusy, ih, List.filter_cons, hj,
              beq_self_eq_true, if_true]
          · rw [List.map_cons, alone_of_ne hj, hbusy, List.filter_cons_of_neg (by simpa using hj)]
            exact ih
      | idle | unwound | finished | gone => exact ih

end Worker

/-! ## The mirror -/

namespace Engine

/-- All that can happen to an engine that takes no more calls. -/
def own? (note : Occurrence κ α → ω → ω) (e : Engine κ α ω) : Action κ α → Option (Engine κ α ω)
  | .begin .. => none
  | .move m => e.act? note (.move m)
  | .collect n => e.act? note (.collect n)

/-- A job moves its own call and shows what it does there. -/
theorem advance_of_call {j : Job κ α} {calls : List (Call κ α)} {c : Call κ α}
    {past : History κ α} (hc : calls[j.call]? = some c) : advance History.note j (calls, past) =
      ((j.advance History.note c []).1, calls.set j.call (j.advance History.note c []).2.1,
        past ++ (j.advance History.note c []).2.2) := by
  simp only [advance, hc]
  rw [j.advance_eq_replay, History.replay_note]

theorem advance_frame {j : Job κ α} {p : Progress (Job κ α)} {calls calls' : List (Call κ α)}
    {past past' : History κ α} (h : advance History.note j (calls, past) = (p, calls', past')) :
    (∀ n, n ≠ j.call → calls'[n]? = calls[n]?) ∧
      (∃ os, past' = past ++ os ∧ ∀ o ∈ os, o.site.call = j.call) ∧
      ∀ j' ∈ p.left, j'.call = j.call := by
  cases hc : calls[j.call]? with
  | none =>
      simp only [advance, hc, Prod.mk.injEq] at h
      rcases h with ⟨rfl, rfl, rfl⟩
      exact ⟨fun _ _ => rfl, ⟨[], by simp⟩, by simp [Progress.left]⟩
  | some c =>
      rw [advance_of_call hc] at h
      cases h
      have hturn := j.advance_turn (c := c) rfl
      exact ⟨fun n hn => List.getElem?_set_ne (Ne.symm hn),
        ⟨_, rfl, fun o ho => (hturn.site_eq o ho).1⟩, fun j' hj' => (hturn.left_eq j' hj').1⟩

/-- The engine `a` is what is left of `e` without all calls but number `k`. -/
structure Mirrors (k : Nat) (e a : Engine κ α (History κ α)) : Prop where
  call : ∃ c, e.calls[k]? = some c ∧ a.calls = [c]
  queue : a.pool.queue = (e.pool.queue.filter fun j => j.call == k).map Job.alone
  workers : a.pool.workers = e.pool.workers.map (Worker.alone k)
  world : a.world = History.alone k e.world

/-- A call that has just begun finds a pool of its own. -/
theorem mirrors_start {threads : Nat} {e : Engine κ α (History κ α)} (hservice : e.InService)
    (hthreads : e.pool.threads = max threads 1)
    (hfresh : ∀ o ∈ e.world, o.site.call < e.calls.length) (c : Call κ α) :
    (e.start c).Mirrors e.calls.length ((Engine.new threads []).start c) := by
  -- no job can be of a call that has not begun
  have hnone : ∀ j ∈ e.pool.jobs, j.call ≠ e.calls.length :=
    fun j hj => Nat.ne_of_lt (hservice.known j hj)
  refine ⟨⟨c, by simp [start], rfl⟩, ?_, ?_, ?_⟩
  · have hqueue : (e.pool.queue.filter fun j => j.call == e.calls.length) = [] := by
      apply List.filter_eq_nil_iff.mpr
      intro j hj
      simpa using hnone j (Multiset.mem_add.mpr (.inl hj))
    simp only [start, hqueue]
    rfl
  · refine (List.eq_replicate_iff.mpr ⟨?_, ?_⟩).symm
    · rw [List.length_map]
      exact hthreads
    · intro x hx
      rcases List.mem_map.mp hx with ⟨y, hy, rfl⟩
      cases y with
      | busy j =>
          have hj : j ∈ e.pool.running := List.mem_filterMap.mpr ⟨.busy j, hy, rfl⟩
          exact Worker.alone_of_ne (hnone j (Multiset.mem_add.mpr (.inr hj)))
      | idle | unwound | finished | gone => rfl
  · exact (History.alone_of_ne fun o ho => Nat.ne_of_lt (hfresh o ho)).symm

namespace Mirrors

variable {k : Nat} {e e' a : Engine κ α (History κ α)}

theorem hasReporter_eq (h : e.Mirrors k a) : a.hasReporter 0 = e.hasReporter k := by
  have hrunning : a.pool.running = (e.pool.running.filter fun j => j.call == k).map Job.alone := by
    rw [Pool.running, h.workers]
    exact Worker.filterMap_job?_alone _
  have hjobs : a.jobs = (e.jobs.filter fun j => j.call == k).map Job.alone := by
    rw [jobs, jobs, h.queue, hrunning, List.filter_append, List.map_append]
  rw [hasReporter, hasReporter, hjobs, List.any_map, List.any_filter]
  congr 1
  funext j
  simp [Job.alone]

/-- Whatever is done for other calls does not show. -/
theorem of_other (h : e.Mirrors k a) (hcall : e'.calls[k]? = e.calls[k]?)
    (hqueue : (e'.pool.queue.filter fun j => j.call == k) =
      e.pool.queue.filter fun j => j.call == k)
    (hworkers : e'.pool.workers.map (Worker.alone k) = e.pool.workers.map (Worker.alone k))
    (hworld : History.alone k e'.world = History.alone k e.world) : e'.Mirrors k a := by
  rcases h with ⟨⟨c, hc, ha⟩, hq, hw, hworld'⟩
  exact ⟨⟨c, hcall.trans hc, ha⟩, hq.trans (congrArg _ hqueue.symm), hw.trans hworkers.symm,
    hworld'.trans hworld.symm⟩

theorem setCall (h : e.Mirrors k a) (c : Call κ α) : (e.setCall k c).Mirrors k (a.setCall 0 c) := by
  rcases h with ⟨⟨c₀, hc, ha⟩, hqueue, hworkers, hworld⟩
  refine ⟨⟨c, ?_, ?_⟩, hqueue, hworkers, hworld⟩
  · simp [Engine.setCall, (List.getElem?_eq_some_iff.mp hc).1]
  · simp [Engine.setCall, ha]

theorem send (h : e.Mirrors k a) {j : Job κ α} (hj : j.call = k) :
    ({ e with pool := e.pool.send j }).Mirrors k { a with pool := a.pool.send j.alone } := by
  refine ⟨h.call, ?_, h.workers, h.world⟩
  simp [Pool.send, h.queue, hj]

theorem tally (h : e.Mirrors k a) :
    ({ e with pool := e.pool.tally }).Mirrors k { a with pool := a.pool.tally } :=
  ⟨h.call, h.queue, h.workers, h.world⟩

/-! ## Callers -/

/-- The caller of the call makes the same step. -/
theorem caller (h : e.Mirrors k a) (hstep : e.callerStep? k = some e') :
    ∃ a', a.callerStep? 0 = some a' ∧ e'.Mirrors k a' := by
  rcases h.call with ⟨c, hc, hcalls⟩
  have ha : a.calls[0]? = some c := by rw [hcalls]; rfl
  simp only [callerStep?, hc, Option.bind_eq_bind, Option.bind_some] at hstep
  simp only [callerStep?, ha, Option.bind_eq_bind, Option.bind_some]
  cases hp : c.phase with
  | submitting left =>
      cases left with
      | nil =>
          simp only [hp, Option.some.injEq] at hstep ⊢
          exact ⟨_, rfl, hstep ▸ h.setCall _⟩
      | cons b left =>
          simp only [hp, Option.some.injEq] at hstep ⊢
          exact ⟨_, rfl, hstep ▸ (h.send rfl).setCall _⟩
  | counting left =>
      simp only [hp, Option.some.injEq] at hstep ⊢
      exact ⟨_, rfl, hstep ▸ h.tally.setCall _⟩
  | gathering =>
      cases hi : c.inbox with
      | cons r rest =>
          simp only [hp, hi, Option.some.injEq] at hstep ⊢
          exact ⟨_, rfl, hstep ▸ h.setCall _⟩
      | nil =>
          -- no report can come where none can come in the shared engine
          cases hr : e.hasReporter k with
          | true => simp [hp, hi, hr] at hstep
          | false =>
              simp only [hp, hi, hr, h.hasReporter_eq, Bool.false_eq_true, if_false,
                Option.some.injEq] at hstep ⊢
              exact ⟨_, rfl, hstep ▸ h.setCall _⟩
  | returned answer => simp [hp] at hstep
  | «over» => simp [hp] at hstep

theorem otherCaller {n : Nat} (h : e.Mirrors k a) (hn : n ≠ k)
    (hstep : e.callerStep? n = some e') : e'.Mirrors k a := by
  rcases callerStep?_turn hstep with ⟨c, c', new, -, hturn, hcalls, hfed, hworld⟩
  have hcall : e'.calls[k]? = e.calls[k]? := by rw [hcalls, List.getElem?_set_ne hn]
  rcases e' with ⟨pool, calls, world⟩
  refine h.of_other hcall ?_ ?_ (by rw [hworld])
  · cases hfed with
    | same | counted => rfl
    | sent job =>
        have hjob : job.call = n := by
          cases hturn with
          | submit hp => rfl
        simp [hjob, hn]
  · cases hfed <;> rfl

/-! ## Workers -/

section

variable {w : Nat} {x y : Worker (Job κ α)} {j : Job κ α} {p : Progress (Job κ α)}

theorem getElem?_workers (h : e.Mirrors k a) (hw : e.pool.workers[w]? = some x) :
    a.pool.workers[w]? = some (x.alone k) := by
  rw [h.workers, List.getElem?_map, hw]
  rfl

/-- A worker whose change does not show. -/
theorem map_alone_set (hw : e.pool.workers[w]? = some x) (hxy : y.alone k = x.alone k) :
    (e.pool.workers.set w y).map (Worker.alone k) = e.pool.workers.map (Worker.alone k) := by
  have hself : (e.pool.workers.map (Worker.alone k))[w]? = some (x.alone k) := by
    rw [List.getElem?_map, hw]
    rfl
  rcases List.getElem?_eq_some_iff.mp hself with ⟨hlt, hx⟩
  rw [List.map_set, hxy, ← hx, List.set_getElem_self]

theorem own?_worker {pool : Pool (Job κ α)} {calls : List (Call κ α)} {world : History κ α}
    (h : a.pool.Shift (advance History.note) (a.calls, a.world) w pool (calls, world)) :
    a.own? History.note (.move (.worker w)) = some ⟨pool, calls, world⟩ := by
  simp only [own?, act?, step?, h.work?]
  rfl

/-- A worker that is through with its job counts it and waits. -/
theorem exists_counted (hp : ∀ j ∈ p.left, j.call = k)
    (hw : a.pool.workers[w]? = some (.after p.alone)) :
    ∃ a', Run (own? History.note) a a' ∧ a'.calls = a.calls ∧ a'.world = a.world ∧
      a'.pool.queue = a.pool.queue ∧
      a'.pool.workers = a.pool.workers.set w ((Worker.after p).alone k) := by
  rcases List.getElem?_eq_some_iff.mp hw with ⟨hlt, hx⟩
  have hend {b : Engine κ α (History κ α)} {panicked : Bool}
      (hb : b.pool.workers[w]? = some (.finished panicked)) :=
    own?_worker (a := b) (.countEnd hb)
  cases p with
  | continues j =>
      refine ⟨a, .refl, rfl, rfl, rfl, ?_⟩
      have hj : (Worker.after (.continues j)).alone k = a.pool.workers[w] :=
        (Worker.alone_of_call (hp j (List.mem_singleton.mpr rfl))).trans hx.symm
      rw [hj, List.set_getElem_self]
  | ends => exact ⟨_, .single (hend hw), rfl, rfl, rfl, rfl⟩
  | panics =>
      have hpanic := own?_worker (.countPanic hw)
      have hfinished : (a.pool.workers.set w (.finished true : Worker (Job κ α)))[w]? =
          some (.finished true) := by simp [hlt]
      have hcount := own?_worker (a := ⟨{ a.pool with panicked := a.pool.panicked + 1 }.assign w
        (.finished true), a.calls, a.world⟩) (.countEnd hfinished)
      exact ⟨_, (Run.single hpanic).snoc hcount, rfl, rfl, rfl, by simp [Pool.assign]; rfl⟩

/-- A worker that takes a job of the call takes it in the mirror. -/
theorem take {job : Job κ α} {rest : List (Job κ α)} (h : e.Mirrors k a)
    (hw : e.pool.workers[w]? = some .idle) (hq : e.pool.queue = job :: rest) :
    ∃ a', Run (own? History.note) a a' ∧
      ({ e with pool := { e.pool with queue := rest }.assign w (.busy job) }).Mirrors k a' := by
  by_cases hjob : job.call = k
  · have hqueue : a.pool.queue = job.alone :: (rest.filter fun j => j.call == k).map Job.alone := by
      rw [h.queue, hq, List.filter_cons_of_pos (by simpa using hjob), List.map_cons]
    refine ⟨_, .single (own?_worker (.take (h.getElem?_workers hw) hqueue)), h.call, rfl, ?_,
      h.world⟩
    simp only [Pool.assign, h.workers, List.map_set, Worker.alone_of_call hjob]
  · refine ⟨a, .refl, h.of_other rfl ?_ (map_alone_set hw (Worker.alone_of_ne hjob)) rfl⟩
    simp [Pool.assign, hq, hjob]

/-- A job of the call makes the same step in the mirror. -/
theorem advance {calls : List (Call κ α)} {world : History κ α} (h : e.Mirrors k a)
    (hw : e.pool.workers[w]? = some (.busy j))
    (hadv : Engine.advance History.note j (e.calls, e.world) = (p, calls, world)) :
    ∃ a', Run (own? History.note) a a' ∧
      Mirrors k ⟨e.pool.assign w (.after p), calls, world⟩ a' := by
  rcases advance_frame hadv with ⟨hothers, ⟨os, hworld, hos⟩, hleft⟩
  by_cases hj : j.call = k
  · subst hj
    rcases h.call with ⟨c, hc, hcalls⟩
    have hzero : a.calls[0]? = some c := by rw [hcalls]; rfl
    have hbusy : a.pool.workers[w]? = some (.busy j.alone) :=
      (h.getElem?_workers hw).trans (congrArg some (Worker.alone_of_call rfl))
    rcases hstep : j.advance History.note c [] with ⟨p', c', shown⟩
    rw [advance_of_call hc, hstep] at hadv
    cases hadv
    -- the mirror makes the step, and then its worker counts what there is to count
    have hmove := own?_worker (.advance hbusy (advance_of_call hzero))
    rw [j.advance_alone, hstep] at hmove
    have hafter : (a.pool.workers.set w (.after p'.alone))[w]? = some (.after p'.alone) := by
      simp [(List.getElem?_eq_some_iff.mp hbusy).1]
    rcases exists_counted (a := ⟨a.pool.assign w (.after p'.alone), a.calls.set 0 c',
      a.world ++ shown.map Occurrence.alone⟩) hleft hafter with
        ⟨a', hrun, hcalls', hworld', hqueue, hworkers⟩
    have hown : ∀ o ∈ shown, o.site.call = j.call :=
      fun o ho => ((Job.advance_turn hstep).site_eq o ho).1
    refine ⟨a', .head ⟨_, hmove⟩ hrun, ⟨c', ?_, ?_⟩, hqueue.trans h.queue, ?_, ?_⟩
    · simp [(List.getElem?_eq_some_iff.mp hc).1]
    · simp [hcalls', hcalls]
    · simp only [hworkers, Pool.assign, List.set_set, h.workers, List.map_set]
    · rw [hworld', History.alone_append, History.alone_of_site hown, h.world]
  · -- a job of another call
    have hidle : (Worker.after p).alone k = (.idle : Worker (Job κ α)) := by
      cases p with
      | continues j' => exact Worker.alone_of_ne (hleft j' (List.mem_singleton.mpr rfl) ▸ hj)
      | ends | panics => rfl
    refine ⟨a, .refl, h.of_other (hothers k (Ne.symm hj)) rfl ?_ ?_⟩
    · exact map_alone_set hw (hidle.trans (Worker.alone_of_ne hj).symm)
    · have hnone : ∀ o ∈ os, o.site.call ≠ k := fun o ho => hos o ho ▸ hj
      rw [hworld, History.alone_append, History.alone_of_ne hnone, List.append_nil]

theorem worker (h : e.Mirrors k a) (hstep : e.step? History.note (.worker w) = some e') :
    ∃ a', Run (own? History.note) a a' ∧ e'.Mirrors k a' := by
  simp only [step?, Option.map_eq_some_iff] at hstep
  rcases hstep with ⟨⟨pool, calls, world⟩, hwork, rfl⟩
  cases Pool.work?_shift hwork with
  | take hw hq => exact h.take hw hq
  | advance hw hadv => exact h.advance hw hadv
  | leave hw hq hc => exact ⟨a, .refl, h.of_other rfl rfl (map_alone_set hw rfl) rfl⟩
  | countPanic hw | countEnd hw =>
      -- in the mirror this was counted as soon as the job was over
      exact ⟨a, .refl, h.of_other rfl rfl (map_alone_set hw rfl) rfl⟩

end

/-! ## Runs -/

/-- Whatever happens in the shared engine happens in the mirror as well, or leaves it as it is. -/
theorem act {x : Action κ α} (h : e.Mirrors k a) (hact : e.act? History.note x = some e') :
    ∃ a', Run (own? History.note) a a' ∧ e'.Mirrors k a' := by
  rcases h.call with ⟨c, hc, hcalls⟩
  cases x with
  | begin policy queryId batches =>
      cases hact
      refine ⟨a, .refl, h.of_other ?_ rfl rfl rfl⟩
      rw [start, List.getElem?_append_left (List.getElem?_eq_some_iff.mp hc).1]
  | move m =>
      cases m with
      | worker w => exact h.worker hact
      | caller n =>
          by_cases hn : n = k
          · subst hn
            rcases h.caller hact with ⟨a', hstep, h'⟩
            exact ⟨a', .single (m := .move (.caller 0)) hstep, h'⟩
          · exact ⟨a, .refl, h.otherCaller hn hact⟩
  | collect n =>
      rcases Option.map_eq_some_iff.mp hact with ⟨⟨answer, e₁⟩, hcollect, rfl⟩
      rcases collect_eq_some hcollect with ⟨c', hc', hp, rfl⟩
      by_cases hn : n = k
      · subst hn
        have hsame : c' = c := Option.some.inj (hc'.symm.trans hc)
        subst hsame
        have hzero : a.calls[0]? = some c' := by rw [hcalls]; rfl
        refine ⟨_, .single (m := .collect 0) ?_, h.setCall { c' with phase := .over }⟩
        rw [own?, act?, collect_of_returned hzero hp]
        rfl
      · exact ⟨a, .refl, h.of_other (List.getElem?_set_ne hn) rfl rfl rfl⟩

theorem run (h : e.Mirrors k a) (hrun : Run (act? History.note) e e') :
    ∃ a', Run (own? History.note) a a' ∧ e'.Mirrors k a' := by
  induction hrun with
  | refl => exact ⟨a, .refl, h⟩
  | tail _ hstep ih =>
      rcases ih with ⟨a₁, hrun, h₁⟩
      rcases hstep with ⟨x, hact⟩
      rcases h₁.act hact with ⟨a', hmore, h'⟩
      exact ⟨a', hrun.trans hmore, h'⟩

end Mirrors

/-- A call does nothing on a shared engine that it could not do on an engine of its own, where it
has number 0. -/
theorem Serves.exists_alone {threads : Nat} {t : Task κ α} {e : Engine κ α (History κ α)}
    (h : e.Serves threads t) :
    ∃ a, Run (own? History.note) ((Engine.new threads []).start t.start) a ∧
      e.Mirrors t.call a := by
  rcases h with ⟨e₀, hpast, hcall, hrun⟩
  rcases sites_of_run hpast with ⟨hservice, hsites⟩
  have hcounted : e₀.Counted (max threads 1) :=
    Run.preserves Counted.act hpast (counted_new threads [])
  rw [hcall]
  exact (mirrors_start hservice hcounted.threads hsites t.start).run hrun

/-! ## Movers -/

/-- The call that a move is made for. -/
def actor? (e : Engine κ α ω) : Move → Option Nat
  | .caller n => some n
  | .worker w => (e.pool.workers[w]?.bind Worker.job?).map Job.call

/-- Only a worker that has a job of a call moves anything of that call. -/
theorem share?_of_otherWorker {e e' : Engine κ α (History κ α)} {w k : Nat}
    (hw : ∀ j, e.pool.workers[w]? = some (.busy j) → j.call ≠ k)
    (hstep : e.step? History.note (.worker w) = some e') : e'.share? k = e.share? k := by
  simp only [step?, Option.map_eq_some_iff] at hstep
  rcases hstep with ⟨⟨pool, calls, world⟩, hwork, rfl⟩
  rcases (Pool.work?_shift hwork).jobs_cases with
    ⟨hjobs, hshared⟩ | ⟨j, others, p, hbusy, hj, hadv, hleft⟩
  · cases hshared
    rw [share?, share?, jobsOf, jobsOf, hjobs]
  · -- the job that moves, and what is left of it, belong to another call
    have hcall := hw j hbusy
    rcases advance_frame hadv with ⟨hothers, ⟨os, rfl, hos⟩, hown⟩
    have hnone : History.ofCall k os = [] := History.ofCall_of_ne os fun o ho => hos o ho ▸ hcall
    have hp : p.left.filter (fun j => j.call = k) = [] := by
      simpa [List.filter_eq_nil_iff] using fun j' hj' => hown j' hj' ▸ hcall
    have hjobs : (pool.jobs.filter fun j => j.call = k) =
        e.pool.jobs.filter fun j => j.call = k := by
      simp [hj, hleft, Multiset.filter_add, Multiset.filter_coe, hp, hcall]
    simp only [share?, jobsOf, hothers k (Ne.symm hcall), hjobs, History.ofCall_append, hnone,
      List.append_nil]

/-- A move for another call leaves a call with its record, its jobs and its history. -/
theorem share?_of_other {e e' : Engine κ α (History κ α)} {m : Move} {k : Nat}
    (hm : e.actor? m ≠ some k) (hstep : e.step? History.note m = some e') :
    e'.share? k = e.share? k := by
  cases m with
  | caller n => exact share?_of_otherCaller (fun hn => hm (congrArg some hn)) hstep
  | worker w =>
      refine share?_of_otherWorker (fun j hj hcall => hm ?_) hstep
      simp [actor?, hj, Worker.job?, hcall]

end Engine

end ScatterGather
