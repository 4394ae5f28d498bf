import ScatterGather.Proofs.Pool.Jobs

/-!
# Progress — the workers of an open pool neither idle nor run for ever

A worker with a job, or with something to count, can always move, and one without takes the next
job of the queue.  Each of its steps is paid for by the pool or, where it moves a job, by the job.

* `Pool.Serving` : a pool that was not closed and has workers;
* `Pool.Shift.serving` : workers keep it so;
* `Pool.exists_work?` : where a job is left some worker can move;
* `Pool.Shift.cost_cases` : what a step of a worker costs.
-/

namespace ScatterGather

variable {ι ω : Type}

/-- The steps that are left to a worker once its job has made a step. -/
def Progress.cost (size : ι → Nat) : Progress ι → Nat
  | continues job => size job
  | ends => 1
  | panics => 2

namespace Pool

structure Serving (p : Pool ι) : Prop where
  isOpen : p.closed = false
  manned : p.workers ≠ []
  present : ∀ x ∈ p.workers, x ≠ .gone

variable {advance : ι → ω → Progress ι × ω} {p p' : Pool ι} {world world' : ω} {w : Nat}

theorem serving_new (threads : Nat) : (Pool.new threads : Pool ι).Serving := by
  refine ⟨rfl, ?_, ?_⟩
  · simp [new]
  · intro x hx
    have hidle : x = .idle := (List.mem_replicate.mp hx).2
    simp [hidle]

theorem Fed.serving {new : List ι} (h : p.Fed new p') (hs : p.Serving) : p'.Serving := by
  cases h with
  | same => exact hs
  | counted => exact ⟨hs.isOpen, hs.manned, hs.present⟩
  | sent job => exact ⟨hs.isOpen, hs.manned, hs.present⟩

theorem Serving.assign (hs : p.Serving) {x : Worker ι} (hx : x ≠ .gone) :
    (p.assign w x).Serving := by
  refine ⟨hs.isOpen, ?_, ?_⟩
  · simpa [Pool.assign] using hs.manned
  · intro y hy
    rcases List.mem_or_eq_of_mem_set hy with hy | rfl
    · exact hs.present y hy
    · exact hx

/-- Only the end of a closed pool makes a worker leave. -/
theorem Shift.serving (h : p.Shift advance world w p' world') (hs : p.Serving) : p'.Serving := by
  cases h with
  | @take job rest hw hq =>
      have hrest : Serving { p with queue := rest } := ⟨hs.isOpen, hs.manned, hs.present⟩
      exact hrest.assign (by simp)
  | leave hw hq hc =>
      -- the pool is open, so nobody leaves
      rw [hs.isOpen] at hc
      cases hc
  | @advance job progress _ hw hadv =>
      refine hs.assign ?_
      cases progress <;> simp [Worker.after]
  | countPanic hw =>
      have hcounted : Serving { p with panicked := p.panicked + 1 } :=
        ⟨hs.isOpen, hs.manned, hs.present⟩
      exact hcounted.assign (by simp)
  | countEnd hw =>
      have hcounted : Serving { p with completed := p.completed + 1 } :=
        ⟨hs.isOpen, hs.manned, hs.present⟩
      exact hcounted.assign (by simp)

/-- Whoever is not waiting can move. -/
theorem exists_work?_of_active {x : Worker ι} (hw : p.workers[w]? = some x)
    (hx : x.isWaiting = false) :
    ∃ p' world', p.work? advance world w = some (p', world') := by
  cases x with
  | idle => cases hx
  | gone => cases hx
  | busy job =>
      cases hadv : advance job world with
      | mk progress world₁ => cases progress <;> simp [work?, hw, hadv]
  | unwound => simp [work?, hw]
  | finished => simp [work?, hw]

theorem exists_work? (advance : ι → ω → Progress ι × ω) (world : ω) (hs : p.Serving)
    (hjobs : p.jobs ≠ 0) : ∃ w p' world', p.work? advance world w = some (p', world') := by
  by_cases hactive : ∃ x ∈ p.workers, x.isWaiting = false
  · rcases hactive with ⟨x, hx, hwaits⟩
    rcases List.getElem?_of_mem hx with ⟨w, hw⟩
    exact ⟨w, exists_work?_of_active hw hwaits⟩
  · -- all workers wait, so the job is in the queue, and any of them can take it
    have hidle : ∀ x ∈ p.workers, x = .idle := by
      intro x hx
      cases x with
      | idle => rfl
      | gone => exact absurd rfl (hs.present _ hx)
      | busy job => exact absurd ⟨_, hx, rfl⟩ hactive
      | unwound => exact absurd ⟨_, hx, rfl⟩ hactive
      | finished => exact absurd ⟨_, hx, rfl⟩ hactive
    have hrunning : p.running = [] := by
      apply List.filterMap_eq_nil_iff.mpr
      intro x hx
      rw [hidle x hx]
      rfl
    cases hq : p.queue with
    | nil => exact absurd (by simp [jobs, hq, hrunning]) hjobs
    | cons job rest =>
        rcases List.exists_mem_of_ne_nil _ hs.manned with ⟨x, hx⟩
        rcases List.getElem?_of_mem hx with ⟨w, hw⟩
        rw [hidle x hx] at hw
        exact ⟨w, { p with queue := rest }.assign w (.busy job), world,
          by simp only [work?, hw, hq]⟩

theorem cost_assign (size : ι → Nat) {x : Worker ι} (hw : p.workers[w]? = some x)
    (y : Worker ι) : (p.assign w y).cost size + workerCost size p.closed x =
      p.cost size + workerCost size p.closed y := by
  have hset := weight_set (workerCost size p.closed) hw y
  simp only [cost, assign]
  omega

theorem workerCost_after (size : ι → Nat) (progress : Progress ι) :
    workerCost size p.closed (.after progress) =
      progress.cost size + if p.closed then 1 else 0 := by
  cases progress <;> rfl

/-- A step of a worker is one step less to make, unless a job makes it. -/
theorem Shift.cost_cases (size : ι → Nat) (h : p.Shift advance world w p' world') :
    (p'.cost size < p.cost size ∧ world' = world) ∨
      ∃ job progress, job ∈ p.jobs ∧ advance job world = (progress, world') ∧
        p'.cost size + size job = p.cost size + progress.cost size := by
  cases h with
  | @take job rest hw hq =>
      -- the queue has paid one step more for the job than the job is going to cost
      have hset := weight_set (workerCost size p.closed) hw (.busy job)
      simp only [workerCost] at hset
      refine .inl ⟨?_, rfl⟩
      simp only [cost, assign, hq, weight_cons]
      omega
  | leave hw hq hc =>
      have hcost := cost_assign size hw .gone
      simp only [workerCost, hc, if_true] at hcost
      exact .inl ⟨by omega, rfl⟩
  | @advance job progress _ hw hadv =>
      -- what the worker pays for its job is what the job pays for itself
      have hmem : job ∈ p.jobs := by
        refine Multiset.mem_add.mpr (.inr (Multiset.mem_coe.mpr ?_))
        exact List.mem_filterMap.mpr ⟨_, List.mem_of_getElem? hw, rfl⟩
      have hcost := cost_assign size hw (.after progress)
      rw [workerCost_after, workerCost] at hcost
      exact .inr ⟨job, progress, hmem, hadv, by omega⟩
  | countPanic hw =>
      have hcost := cost_assign size hw (.finished true)
      simp only [workerCost, cost, assign] at hcost ⊢
      exact .inl ⟨by omega, trivial⟩
  | countEnd hw =>
      have hcost := cost_assign size hw .idle
      simp only [workerCost, cost, assign] at hcost ⊢
      exact .inl ⟨by omega, trivial⟩

end Pool

end ScatterGather
