import ScatterGather.Proofs.Pool.Progress

/-!
# Counts — what the counters of a pool tell of its jobs

A job that was sent waits in the queue, is with a worker until its completion is counted, or is
counted.  Sending and counting are two steps, so at any time some of the jobs that were sent may
still be uncounted.

* `Worker.owed` : the completions that a worker has still to count;
* `Pool.Counted` : no job is lost and none is counted twice;
* `Pool.Shift.counted`, `Pool.Shift.uncounted_eq`, `Pool.Shift.threads_eq` : steps of workers;
* `Pool.resting_of_stuck`, `Pool.Counted.completed_eq` : a pool in which no worker can move.
-/

namespace ScatterGather

variable {ι ω : Type}

namespace Worker

def owed : Worker ι → Nat
  | busy _ => 1
  | unwound => 1
  | finished _ => 1
  | idle => 0
  | gone => 0

@[simp] theorem owed_after (p : Progress ι) : (after p).owed = 1 := by
  cases p <;> rfl

end Worker

namespace Pool

/-- Every job that was sent is queued, with a worker, or counted as completed. -/
def Counted (p : Pool ι) : Prop :=
  p.submitted + p.uncounted = p.completed + p.queue.length + weight Worker.owed p.workers

variable {advance : ι → ω → Progress ι × ω} {p p' : Pool ι} {world world' : ω} {w : Nat}

/-! ## Steps -/

theorem owed_idle {workers : List (Worker ι)} (h : ∀ x ∈ workers, x = .idle) :
    weight Worker.owed workers = 0 :=
  weight_eq_zero Worker.owed fun x hx => by rw [h x hx]; rfl

theorem counted_new (threads : Nat) : (Pool.new threads : Pool ι).Counted := by
  have hidle : weight Worker.owed (List.replicate (max threads 1) (.idle : Worker ι)) = 0 :=
    owed_idle fun x hx => (List.mem_replicate.mp hx).2
  simp [Counted, new, hidle]

theorem Counted.send (h : p.Counted) (job : ι) : (p.send job).Counted := by
  simp only [Counted, Pool.send, List.length_append, List.length_singleton] at h ⊢
  omega

/-- A job can be counted only after it was sent. -/
theorem Counted.tally (h : p.Counted) (hsent : 0 < p.uncounted) : p.tally.Counted := by
  simp only [Counted, Pool.tally] at h ⊢
  omega

theorem Shift.counted (h : p.Shift advance world w p' world') (hc : p.Counted) : p'.Counted := by
  have hset {x : Worker ι} (hw : p.workers[w]? = some x) (y : Worker ι) :=
    weight_set Worker.owed hw y
  simp only [Counted] at hc ⊢
  cases h with
  | @take job rest hw hq =>
      -- the job leaves the queue and is with the worker
      have hweight := hset hw (.busy job)
      simp only [hq, List.length_cons, Worker.owed, assign] at hc hweight ⊢
      omega
  | leave hw hq hclosed =>
      have hweight := hset hw .gone
      simp only [Worker.owed, assign] at hweight ⊢
      omega
  | @advance job progress _ hw hadv =>
      have hweight := hset hw (.after progress)
      rw [Worker.owed_after, Worker.owed] at hweight
      simp only [assign]
      omega
  | countPanic hw =>
      have hweight := hset hw (.finished true)
      simp only [Worker.owed, assign] at hweight ⊢
      omega
  | countEnd hw =>
      -- what the worker owed is now counted
      have hweight := hset hw .idle
      simp only [Worker.owed, assign] at hweight ⊢
      omega

theorem Shift.uncounted_eq (h : p.Shift advance world w p' world') :
    p'.uncounted = p.uncounted := by
  cases h <;> rfl

theorem Shift.threads_eq (h : p.Shift advance world w p' world') : p'.threads = p.threads := by
  cases h <;> simp [threads, assign]

/-! ## Pools at rest -/

/-- Where no worker can move all of them wait for a job, and there is none. -/
theorem resting_of_stuck (hs : p.Serving) (hstuck : ∀ w, p.work? advance world w = none) :
    p.queue = [] ∧ p.workers = List.replicate p.threads .idle := by
  have hjobs : p.jobs = 0 := by
    by_contra hne
    rcases exists_work? advance world hs hne with ⟨w, p', world', hwork⟩
    rw [hstuck w] at hwork
    cases hwork
  have hqueue : p.queue ++ p.running = [] :=
    (Multiset.coe_eq_zero _).mp ((Multiset.coe_add ..).symm.trans hjobs)
  refine ⟨(List.append_eq_nil_iff.mp hqueue).1, List.eq_replicate_iff.mpr ⟨rfl, ?_⟩⟩
  intro x hx
  rcases List.getElem?_of_mem hx with ⟨w, hw⟩
  cases hwaits : x.isWaiting with
  | false =>
      have hmoves : ∃ p' world', p.work? advance world w = some (p', world') :=
        exists_work?_of_active hw hwaits
      simp [hstuck w] at hmoves
  | true =>
      -- whoever waits is idle, for nobody has left
      cases x with
      | idle => rfl
      | gone => exact absurd rfl (hs.present _ hx)
      | busy job => cases hwaits
      | unwound => cases hwaits
      | finished => cases hwaits

/-- Workers that wait for a job do not move while there is none. -/
theorem stuck_of_resting (hopen : p.closed = false) (hq : p.queue = [])
    (hidle : ∀ x ∈ p.workers, x = .idle) (w : Nat) : p.work? advance world w = none := by
  cases hw : p.workers[w]? with
  | none => simp [work?, hw]
  | some x =>
      cases hidle x (List.mem_of_getElem? hw)
      simp [work?, hw, hq, hopen]

theorem Counted.completed_eq (h : p.Counted) (hq : p.queue = [])
    (hidle : ∀ x ∈ p.workers, x = .idle) (hsent : p.uncounted = 0) :
    p.completed = p.submitted := by
  have howed := owed_idle hidle
  simp only [Counted, hq, howed, hsent, List.length_nil] at h
  omega

end Pool

end ScatterGather
