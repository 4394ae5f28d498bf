import Mathlib.Algebra.Order.Group.Multiset
import ScatterGather.Pool

/-!
# Jobs — the jobs of a pool, queued or running

Which worker runs a job, and where in the queue it waits, matters to nobody but the pool.  Seen
from outside a worker step either leaves the jobs alone or moves exactly one of them.

* `Pool.jobs` : all jobs that are not over, as a multiset;
* `Pool.Fed` : what submitters do to a pool;
* `Pool.Shift`, `Pool.work?_shift` : the steps of a worker;
* `Pool.Shift.jobs_cases` : what they do to the jobs.
-/

namespace ScatterGather

variable {ι ω : Type}

/-- The job that goes on behind a step. -/
def Progress.left : Progress ι → List ι
  | continues job => [job]
  | ends => []
  | panics => []

namespace Worker

/-- What a worker becomes once its job has made a step. -/
def after : Progress ι → Worker ι
  | .continues job => busy job
  | .ends => finished false
  | .panics => unwound

@[simp] theorem job?_after (p : Progress ι) : (after p).job?.toList = p.left := by
  cases p <;> rfl

end Worker

namespace Pool

/-- The jobs that are not over. -/
def jobs (p : Pool ι) : Multiset ι :=
  ↑p.queue + ↑p.running

theorem jobs_new (threads : Nat) : (Pool.new threads : Pool ι).jobs = 0 := by
  simp [jobs, new, running, Worker.job?]

@[simp] theorem jobs_send (job : ι) (p : Pool ι) : (p.send job).jobs = job ::ₘ p.jobs := by
  have hqueue : ((p.queue ++ [job] : List ι) : Multiset ι) = job ::ₘ ↑p.queue := by
    rw [Multiset.cons_coe, Multiset.coe_eq_coe]
    exact List.perm_append_singleton job p.queue
  calc
    (p.send job).jobs = ↑(p.queue ++ [job]) + ↑p.running := rfl
    _ = job ::ₘ (↑p.queue + ↑p.running) := by rw [hqueue, Multiset.cons_add]

@[simp] theorem jobs_tally (p : Pool ι) : p.tally.jobs = p.jobs := rfl

/-- What submitters do to a pool: nothing, count a job, or send one. -/
inductive Fed (p : Pool ι) : List ι → Pool ι → Prop
  | same : Fed p [] p
  | counted : Fed p [] p.tally
  | sent (job : ι) : Fed p [job] (p.send job)

theorem Fed.jobs_eq {p p' : Pool ι} {new : List ι} (h : p.Fed new p') :
    p'.jobs = ↑new + p.jobs := by
  cases h with
  | same | counted => simp
  | sent job => simp

/-- All workers but one keep their jobs when that one changes. -/
theorem exists_others {p : Pool ι} {w : Nat} {x : Worker ι} (hw : p.workers[w]? = some x) :
    ∃ others : Multiset ι, (p.running : Multiset ι) = ↑x.job?.toList + others ∧
      ∀ y, ((p.assign w y).running : Multiset ι) = ↑y.job?.toList + others := by
  rcases List.getElem?_eq_some_iff.mp hw with ⟨hlt, hx⟩
  -- the row of workers in front of the one that changes, and behind it
  have hsplit (y : Worker ι) :
      p.workers.set w y = p.workers.take w ++ y :: p.workers.drop (w + 1) :=
    List.set_eq_take_append_cons_drop .. |>.trans (if_pos hlt)
  have hcount (y : Worker ι) : ((p.assign w y).running : Multiset ι) =
      ↑y.job?.toList + (↑((p.workers.take w).filterMap Worker.job?) +
        ↑((p.workers.drop (w + 1)).filterMap Worker.job?)) := by
    have hrunning : (p.assign w y).running =
        (p.workers.take w).filterMap Worker.job? ++
          (y.job?.toList ++ (p.workers.drop (w + 1)).filterMap Worker.job?) := by
      simp only [running, assign, hsplit, List.filterMap_append, List.filterMap_cons]
      cases y.job? <;> rfl
    rw [hrunning, ← Multiset.coe_add, ← Multiset.coe_add, add_left_comm]
  -- the old row is that in which the worker is set to what it was
  have hself : p.assign w x = p := by
    have hset : p.workers.set w x = p.workers := by
      rw [← hx]
      exact List.set_getElem_self hlt
    simp [assign, hset]
  refine ⟨_, ?_, hcount⟩
  simpa [hself] using hcount x

/-- Everything that worker `w` can do in one step. -/
inductive Shift (advance : ι → ω → Progress ι × ω) (p : Pool ι) (world : ω) (w : Nat) :
    Pool ι → ω → Prop
  | take {job : ι} {rest : List ι} (hw : p.workers[w]? = some .idle)
      (hq : p.queue = job :: rest) :
      Shift advance p world w ({ p with queue := rest }.assign w (.busy job)) world
  | leave (hw : p.workers[w]? = some .idle) (hq : p.queue = []) (hc : p.closed = true) :
      Shift advance p world w (p.assign w .gone) world
  | advance {job : ι} {progress : Progress ι} {world' : ω} (hw : p.workers[w]? = some (.busy job))
      (hadv : advance job world = (progress, world')) :
      Shift advance p world w (p.assign w (.after progress)) world'
  | countPanic (hw : p.workers[w]? = some .unwound) :
      Shift advance p world w
        ({ p with panicked := p.panicked + 1 }.assign w (.finished true)) world
  | countEnd {panicked : Bool} (hw : p.workers[w]? = some (.finished panicked)) :
      Shift advance p world w ({ p with completed := p.completed + 1 }.assign w .idle) world

variable {advance : ι → ω → Progress ι × ω} {p p' : Pool ι} {world world' : ω} {w : Nat}

theorem work?_shift (h : p.work? advance world w = some (p', world')) :
    p.Shift advance world w p' world' := by
  cases hw : p.workers[w]? with
  | none => simp [work?, hw] at h
  | some x =>
      cases x with
      | idle =>
          cases hq : p.queue with
          | nil =>
              by_cases hc : p.closed
              · simp only [work?, hw, hq, hc, if_true, Option.some.injEq, Prod.mk.injEq] at h
                rcases h with ⟨rfl, rfl⟩
                exact .leave hw hq hc
              · simp [work?, hw, hq, hc] at h
          | cons job rest =>
              simp only [work?, hw, hq, Option.some.injEq, Prod.mk.injEq] at h
              rcases h with ⟨rfl, rfl⟩
              exact .take hw hq
      | busy job =>
          cases hadv : advance job world with
          | mk progress world₁ =>
              cases progress <;>
                simp only [work?, hw, hadv, Option.some.injEq, Prod.mk.injEq] at h <;>
                rcases h with ⟨rfl, rfl⟩ <;> exact .advance hw hadv
      | unwound =>
          simp only [work?, hw, Option.some.injEq, Prod.mk.injEq] at h
          rcases h with ⟨rfl, rfl⟩
          exact .countPanic hw
      | finished =>
          simp only [work?, hw, Option.some.injEq, Prod.mk.injEq] at h
          rcases h with ⟨rfl, rfl⟩
          exact .countEnd hw
      | gone => simp [work?, hw] at h

theorem Shift.work? (h : p.Shift advance world w p' world') :
    p.work? advance world w = some (p', world') := by
  cases h with
  | take hw hq => simp only [Pool.work?, hw, hq]
  | leave hw hq hc => simp only [Pool.work?, hw, hq, hc, if_true]
  | @advance job progress _ hw hadv => cases progress <;> simp only [Pool.work?, hw, hadv] <;> rfl
  | countPanic hw => simp only [Pool.work?, hw]
  | countEnd hw => simp only [Pool.work?, hw]

/-- Whether a worker can move is up to the pool, whatever its job does then. -/
theorem isSome_work? {ω' : Type} (advance : ι → ω → Progress ι × ω)
    (advance' : ι → ω' → Progress ι × ω') (p : Pool ι) (world : ω) (world' : ω') (w : Nat) :
    (p.work? advance world w).isSome = (p.work? advance' world' w).isSome := by
  cases hw : p.workers[w]? with
  | none => simp [Pool.work?, hw]
  | some x =>
      cases x with
      | idle =>
          cases hq : p.queue with
          | nil => cases hc : p.closed <;> simp [Pool.work?, hw, hq, hc]
          | cons job rest => simp [Pool.work?, hw, hq]
      | busy job =>
          rcases hadv : advance job world with ⟨progress, after⟩
          rcases hadv' : advance' job world' with ⟨progress', after'⟩
          cases progress <;> cases progress' <;> simp [Pool.work?, hw, hadv, hadv']
      | unwound | finished | gone => simp [Pool.work?, hw]

/-- A worker either takes a job, counts or leaves, or it moves the job that it has. -/
theorem Shift.jobs_cases (h : p.Shift advance world w p' world') :
    (p'.jobs = p.jobs ∧ world' = world) ∨
      ∃ job others progress, p.workers[w]? = some (.busy job) ∧ p.jobs = job ::ₘ others ∧
        advance job world = (progress, world') ∧ p'.jobs = ↑progress.left + others := by
  -- a worker that has no job before the step and none after it
  have hidle {x y : Worker ι} (hw : p.workers[w]? = some x) (hx : x.job? = none)
      (hy : y.job? = none) : (p.assign w y).jobs = p.jobs := by
    rcases exists_others hw with ⟨others, hrunning, hassign⟩
    have heq : ((p.assign w y).running : Multiset ι) = ↑p.running := by
      rw [hassign, hrunning, hx, hy]
    exact congrArg ((p.queue : Multiset ι) + ·) heq
  cases h with
  | leave hw hq hc => exact .inl ⟨hidle hw rfl rfl, rfl⟩
  | countPanic hw => exact .inl ⟨hidle hw rfl rfl, rfl⟩
  | countEnd hw => exact .inl ⟨hidle hw rfl rfl, rfl⟩
  | @take job rest hw hq =>
      rcases exists_others hw with ⟨others, hrunning, hassign⟩
      -- the job moves from the queue to the worker
      have htake : (({ p with queue := rest }.assign w (.busy job)).running : Multiset ι) =
          job ::ₘ ↑p.running :=
        calc
          _ = ↑[job] + others := hassign (.busy job)
          _ = job ::ₘ ↑p.running := by
              simp [hrunning, Worker.job?]
      refine .inl ⟨?_, rfl⟩
      calc
        ({ p with queue := rest }.assign w (.busy job)).jobs
            = ↑rest + (job ::ₘ ↑p.running) := congrArg ((rest : Multiset ι) + ·) htake
        _ = ↑p.queue + ↑p.running := by
            rw [hq, Multiset.add_cons, ← Multiset.cons_coe, Multiset.cons_add]
  | @advance job progress _ hw hadv =>
      rcases exists_others hw with ⟨others, hrunning, hassign⟩
      -- the queue and the jobs of the other workers stay
      refine .inr ⟨job, ↑p.queue + others, progress, hw, ?_, hadv, ?_⟩
      · calc
          p.jobs = ↑p.queue + (↑[job] + others) := congrArg ((p.queue : Multiset ι) + ·) hrunning
          _ = job ::ₘ (↑p.queue + others) := by
              rw [Multiset.coe_singleton, Multiset.singleton_add, Multiset.add_cons]
      · have hafter := hassign (.after progress)
        rw [Worker.job?_after] at hafter
        calc
          (p.assign w (.after progress)).jobs
              = ↑p.queue + (↑progress.left + others) :=
                congrArg ((p.queue : Multiset ι) + ·) hafter
          _ = ↑progress.left + (↑p.queue + others) := by rw [add_left_comm]

end Pool

end ScatterGather
