import ScatterGather.Proofs.Engine.Rest
import ScatterGather.Proofs.Session.Exclusion

/-!
# Flight — the units that are under way

A job runs one unit at a time, and its connection is in no other hands.  So no connection serves two
calls at once, the units of a group come one behind the other, and there are no more units under way
than there are groups or workers.

* `Job.calling?` : the statement whose call is being made, the reading of its cursor included;
* `Engine.Queued` : a job that waits in the queue has not run any unit;
* `Journal.Tells.nodup_calling`, `Journal.Tells.flying_le`, `Journal.Tells.order` : the units of the
  calls of a journal;
* `Session.one_call_per_connection` : what is under way, and in which order it came.
-/

namespace ScatterGather

/-! ## Jobs -/

/-- Whether a unit is under way. -/
def Job.isFlying {κ α : Type} (j : Job κ α) : Bool :=
  match j.stage with
  | .running _ _ => true
  | _ => false

/-- The statement whose call has begun and is not over, as long as its cursor is read. -/
def Job.calling? (j : Job Effect Output) : Option Statement :=
  if j.stage.todo.any fun x => x.begins?.isSome then none
  else j.stage.todo.findSome? Effect.serves?

namespace Engine

variable {κ α ω : Type} {note : Occurrence κ α → ω → ω} {e e' : Engine κ α ω}

/-! ## The queue -/

/-- A job that waits has not begun. -/
def Queued (e : Engine κ α ω) : Prop :=
  ∀ j ∈ e.pool.queue, j.stage = .checking

theorem Queued.step {m : Move} (h : e.Queued) (hstep : e.step? note m = some e') : e'.Queued := by
  cases m with
  | caller k =>
      rcases callerStep?_turn hstep with ⟨c, c', new, -, hturn, -, hfed, -⟩
      rcases e' with ⟨pool, calls, world⟩
      intro j hj
      cases hfed with
      | same | counted => exact h j hj
      | sent job =>
          rcases List.mem_append.mp hj with hj | hj
          · exact h j hj
          · -- a job is sent as it was made from its batch
            cases List.mem_singleton.mp hj
            cases hturn with
            | submit hp => rfl
  | worker w =>
      simp only [step?, Option.map_eq_some_iff] at hstep
      rcases hstep with ⟨⟨pool, calls, world⟩, hwork, rfl⟩
      intro j hj
      cases Pool.work?_shift hwork with
      | take hw hq => exact h j (hq ▸ List.mem_cons_of_mem _ hj)
      | leave | advance | countPanic | countEnd => exact h j hj

theorem Queued.act {a : Action κ α} (h : e.Queued) (hact : e.act? note a = some e') :
    e'.Queued := by
  cases a with
  | begin policy queryId batches =>
      cases hact
      exact h
  | move m => exact h.step hact
  | collect n =>
      rcases Option.map_eq_some_iff.mp hact with ⟨⟨answer, e₁⟩, hcollect, rfl⟩
      rcases collect_eq_some hcollect with ⟨c, hc, hp, rfl⟩
      exact h

/-- Only workers have units under way, and no worker has two. -/
theorem Queued.flying_le (h : e.Queued) : e.jobs.countP Job.isFlying ≤ e.pool.threads := by
  have hqueue : e.pool.queue.countP Job.isFlying = 0 := by
    apply List.countP_eq_zero.mpr
    intro j hj
    simp [Job.isFlying, h j hj]
  calc
    e.jobs.countP Job.isFlying = e.pool.running.countP Job.isFlying := by
      rw [jobs, List.countP_append, hqueue, Nat.zero_add]
    _ ≤ e.pool.running.length := List.countP_le_length
    _ ≤ e.pool.threads := List.length_filterMap_le ..

end Engine

/-! ## Connections -/

namespace Journal.Tells

variable {β : Type} {s : Session β} {j : Journal} {threads : Nat}

/-- No connection has two calls at once. -/
theorem nodup_calling (h : j.Tells threads s) :
    ((s.engine.jobs.filterMap Job.calling?).map fun st => st.connection.id).Nodup := by
  have hcalling : ∀ job ∈ s.engine.jobs, ∀ st, job.calling? = some st →
      st.connection = job.connection := by
    intro job hjob st hst
    simp only [Job.calling?] at hst
    split at hst
    · cases hst
    · rcases List.exists_of_findSome?_eq_some hst with ⟨x, hx, hst⟩
      exact h.todo_connection hjob hx hst
  have hjobs := h.nodup_connections
  rw [List.Nodup, List.pairwise_map] at hjobs ⊢
  refine List.pairwise_filterMap.mpr (hjobs.imp_of_mem ?_)
  intro job job' hjob hjob' hne st hst st' hst'
  rwa [hcalling job hjob st hst, hcalling job' hjob' st' hst']

/-- A call has no more units under way than it has groups. -/
theorem flying_le (h : j.Tells threads s) {k : Nat} {o : Opened} (ho : j.calls[k]? = some o) :
    (s.engine.jobs.filter fun job => job.call = k).countP Job.isFlying ≤ o.groups.length := by
  have hbatches := Engine.nodup_batches h.nodup_batches k
  have hbelow : (s.engine.jobs.filter fun job => job.call = k).map Job.batch ⊆
      List.range o.groups.length := by
    intro i hi
    rcases List.mem_map.mp hi with ⟨job, hjob, rfl⟩
    rcases List.mem_filter.mp hjob with ⟨hjob, hcall⟩
    rcases h.job_placed hjob with ⟨o', g, ho', hg, -⟩
    have hsame : o' = o := by simpa [of_decide_eq_true hcall, ho] using ho'.symm
    subst hsame
    exact List.mem_range.mpr (List.getElem?_eq_some_iff.mp hg).1
  have hle := (hbatches.subperm hbelow).length_le
  rw [List.length_map, List.length_range] at hle
  exact List.countP_le_length.trans hle

/-- A unit starts when its group has run all units in front of it and has done nothing else. -/
theorem order (h : j.Tells threads s) {k : Nat} {o : Opened} (ho : j.calls[k]? = some o)
    {before after : History Effect Output} {site : Site} (hk : site.call = k)
    (hpast : j.past = before ++ .begun site :: after) :
    ∃ g front u back, o.groups[site.batch]? = some g ∧ g.units = front ++ u :: back ∧
      u.position = site.position ∧
      Batch.Passed (History.trail site.batch (History.ofCall k before))
        (front.map (o.assignment.work s.backend)) := by
  rcases h.orderly ho with ⟨sh, horderly, -, hhistory⟩
  have hsplit : sh.history =
      History.ofCall k before ++ .begun site :: History.ofCall k after := by
    rw [hhistory, hpast, History.ofCall_append]
    simp [History.ofCall, Occurrence.site, hk]
  rcases horderly.order _ site _ hsplit with ⟨batch, front, u, back, hbatch, hunits, hu, hpassed⟩
  rcases Opened.getElem?_batches.mp hbatch with ⟨g, hg, rfl⟩
  rcases List.map_eq_append_iff.mp hunits with ⟨front', rest', hgunits, rfl, hrest⟩
  rcases List.map_eq_cons_iff.mp hrest with ⟨u', back', rfl, rfl, rfl⟩
  exact ⟨g, front', u', back', hg, hgunits, hu, hpassed⟩

end Journal.Tells

namespace Session

variable {β : Type} {s : Session β} {j : Journal}

/-- No connection has two calls at once, and the world has counted none that overlap.  The units of
a group run one behind the other, and there are no more units under way than groups, of which a call
has at most its cap, nor than workers. -/
theorem one_call_per_connection {threads : Nat} {backend : Backend} {executors : List Executor}
    {recorders : Nat}
    (hrun : Run journaled? (Session.start threads backend executors recorders, .empty) (s, j)) :
    ((s.engine.jobs.filterMap Job.calling?).map fun st => st.connection.id).Nodup ∧
    s.world.overlaps = 0 ∧
    (∀ k o before site after, j.calls[k]? = some o → site.call = k →
      j.past = before ++ .begun site :: after →
      ∃ g front u back, o.groups[site.batch]? = some g ∧ g.units = front ++ u :: back ∧
        u.position = site.position ∧
        Batch.Passed (History.trail site.batch (History.ofCall k before))
          (front.map (o.assignment.work s.backend))) ∧
    (∀ k o, j.calls[k]? = some o →
      (s.engine.jobs.filter fun job => job.call = k).countP Job.isFlying ≤ o.groups.length ∧
        o.groups.length ≤ max o.executor.cap 1) ∧
    s.engine.jobs.countP Job.isFlying ≤ s.engine.pool.threads ∧
      s.engine.pool.threads = max threads 1 := by
  have h := tells_of_run hrun
  have hcounted : (s.engine.withWorld j.past).Counted (max threads 1) :=
    Run.preserves Engine.Counted.act h.recorded (Engine.counted_new threads [])
  have hqueued : (s.engine.withWorld j.past).Queued :=
    Run.preserves Engine.Queued.act h.recorded (by simp [Engine.Queued, Engine.new, Pool.new])
  refine ⟨h.nodup_calling, (watched_of_run hrun).overlaps, ?_, ?_, hqueued.flying_le,
    hcounted.threads⟩
  · intro k o before site after ho hk hpast
    exact h.order ho hk hpast
  · intro k o ho
    rcases h.grouped o (List.mem_of_getElem? ho) with ⟨w, w', hg⟩
    exact ⟨h.flying_le ho, Grouping.length_le_cap hg⟩

/-! ## An example -/

/-- One worker makes a call while the other reads the rows of the second unit of its group. -/
def crossing : List (Step Unit) :=
  calling .query 0 0 4 19 0 ++ List.replicate 3 (.engine (.worker 1))

theorem one_call_per_connection_crossing : ∃ (s : Session Unit) (j : Journal),
    Run journaled? (start 2 .willing [.triple] 0, .empty) (s, j) ∧
      s.engine.jobs.countP Job.isFlying = 2 ∧ 2 ≤ s.engine.pool.threads ∧
      (s.engine.jobs.filterMap Job.calling?).length = 2 ∧
      ((s.engine.jobs.filterMap Job.calling?).map fun st => st.connection.id).Nodup := by
  have hsteps : (crossing.foldlM journaled? (start 2 .willing [.triple] 0, .empty)).map (fun r =>
      (r.1.engine.jobs.countP Job.isFlying,
        (r.1.engine.jobs.filterMap Job.calling?).map fun st => st.id)) = some (2, [1, 2]) := by
    decide +kernel
  rcases Option.map_eq_some_iff.mp hsteps with ⟨⟨s, j⟩, hmoves, hseen⟩
  rw [Prod.mk.injEq] at hseen
  have hrun := Run.of_moves hmoves
  rcases one_call_per_connection hrun with ⟨hcalling, -, -, -, hworkers, -⟩
  have hlength := congrArg List.length hseen.2
  rw [List.length_map] at hlength
  exact ⟨s, j, hrun, hseen.1, hseen.1 ▸ hworkers, hlength, hcalling⟩

end Session

end ScatterGather
