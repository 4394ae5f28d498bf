import ScatterGather.Pool.Routine
import ScatterGather.Proofs.Pool.Tickets
import ScatterGather.Proofs.Run

/-!
# Draining — a pool runs every job that it accepts, and runs it once

A job is queued, taken by one worker, and over when its last step is made; the counters follow.
Whether the job panics makes no difference to its worker, which leaves only where the pool is closed
and nothing is queued.

* `Pool.Staffed` : nobody leaves before that;
* `Book.Kept` : what the book of a pool says of its jobs and counters, move after move;
* `Book.Kept.drains` : the workers of a pool come to the end of jobs that have one;
* `Pool.jobs_run_once` : all of this for the pool.
-/

namespace ScatterGather

variable {ι κ ω : Type}

namespace Ticket

/-- The step of a ticket leaves its number with a job that goes on or with one that is over. -/
theorem number_advance (advance : ι → ω → Progress ι × ω) (t : Ticket ι) (world : ω) :
    (t.advance advance world).1.left.map number ++
      (t.advance advance world).1.outcome?.toList.map (fun _ => t.number) = [t.number] := by
  rcases hadv : advance t.job world with ⟨progress, world'⟩
  cases progress <;>
    simp [Ticket.advance, hadv, Progress.map, Progress.left, Progress.outcome?]

end Ticket

namespace Worker

/-- The panics that a worker has still to count. -/
def blown : Worker ι → Nat
  | unwound => 1
  | _ => 0

theorem blown_after (p : Progress ι) : (after p).blown = p.outcome?.toList.countP id := by
  cases p <;> rfl

end Worker

namespace Pool

/-! ## Who is there -/

/-- A pool has workers, and they leave only where it is closed and nothing is queued. -/
structure Staffed (p : Pool ι) : Prop where
  manned : p.workers ≠ []
  stays : ∀ x ∈ p.workers, x = .gone → p.closed = true ∧ p.queue = []

/-- Nothing is queued, and the workers wait for more or have left. -/
def Drained (p : Pool ι) : Prop :=
  p.queue = [] ∧ ∀ x ∈ p.workers, x = if p.closed then .gone else .idle

variable {advance : ι → ω → Progress ι × ω} {p p' : Pool ι} {world world' : ω} {w : Nat}

theorem staffed_new (threads : Nat) : (new threads : Pool ι).Staffed := by
  have hserving : (new threads : Pool ι).Serving := serving_new threads
  exact ⟨hserving.manned, fun x hx hgone => absurd hgone (hserving.present x hx)⟩

theorem Staffed.assign (h : p.Staffed) {x : Worker ι}
    (hx : x = .gone → p.closed = true ∧ p.queue = []) : (p.assign w x).Staffed := by
  refine ⟨?_, ?_⟩
  · simpa [Pool.assign] using h.manned
  · intro y hy hgone
    rcases List.mem_or_eq_of_mem_set hy with hy | rfl
    · exact h.stays y hy hgone
    · exact hx hgone

theorem Shift.staffed (h : p.Shift advance world w p' world') (hs : p.Staffed) : p'.Staffed := by
  cases h with
  | @take job rest hw hq =>
      -- something is queued, so all of them are there
      have hrest : Staffed { p with queue := rest } := by
        refine ⟨hs.manned, fun x hx hgone => ?_⟩
        have hempty := (hs.stays x hx hgone).2
        rw [hq] at hempty
        cases hempty
      exact hrest.assign (by simp)
  | leave hw hq hc => exact hs.assign fun _ => ⟨hc, hq⟩
  | @advance job progress _ hw hadv =>
      refine hs.assign ?_
      cases progress <;> simp [Worker.after]
  | countPanic hw =>
      have hcounted : Staffed { p with panicked := p.panicked + 1 } := ⟨hs.manned, hs.stays⟩
      exact hcounted.assign (by simp)
  | countEnd hw =>
      have hcounted : Staffed { p with completed := p.completed + 1 } := ⟨hs.manned, hs.stays⟩
      exact hcounted.assign (by simp)

/-- As long as the pool is not drained some worker can move. -/
theorem Staffed.exists_work? (h : p.Staffed) (hdrained : ¬ p.Drained) :
    ∃ w p' world', p.work? advance world w = some (p', world') := by
  by_cases hactive : ∃ x ∈ p.workers, x.isWaiting = false
  · rcases hactive with ⟨x, hx, hwaits⟩
    rcases List.getElem?_of_mem hx with ⟨w, hw⟩
    exact ⟨w, exists_work?_of_active hw hwaits⟩
  · have hwaits : ∀ x ∈ p.workers, x = .idle ∨ x = .gone := by
      intro x hx
      cases x with
      | idle => exact .inl rfl
      | gone => exact .inr rfl
      | busy | unwound | finished => exact absurd ⟨_, hx, rfl⟩ hactive
    -- all of them wait, so one that is idle takes the next job or leaves
    obtain ⟨x, hx, rfl, hmoves⟩ :
        ∃ x ∈ p.workers, x = .idle ∧ (p.queue ≠ [] ∨ p.closed = true) := by
      by_contra hnone
      refine hdrained ⟨?_, fun x hx => ?_⟩
      · by_contra hqueue
        rcases List.exists_mem_of_ne_nil _ h.manned with ⟨x, hx⟩
        rcases hwaits x hx with rfl | rfl
        · exact hnone ⟨_, hx, rfl, .inl hqueue⟩
        · exact hqueue (h.stays _ hx rfl).2
      · rcases hwaits x hx with rfl | rfl
        · have hopen : p.closed = false := by
            by_contra hc
            exact hnone ⟨_, hx, rfl, .inr (by simpa using hc)⟩
          simp [hopen]
        · simp [(h.stays _ hx rfl).1]
    rcases List.getElem?_of_mem hx with ⟨w, hw⟩
    cases hq : p.queue with
    | nil =>
        have hc : p.closed = true := hmoves.resolve_left (not_not.mpr hq)
        exact ⟨w, p.assign w .gone, world, by simp [work?, hw, hq, hc]⟩
    | cons job rest =>
        exact ⟨w, { p with queue := rest }.assign w (.busy job), world,
          by simp only [work?, hw, hq]⟩

/-- A job that has an end lowers the cost of its pool with each step. -/
theorem Shift.cost_lt {size : ι → Nat}
    (hsize : ∀ job world, (advance job world).1.cost size < size job)
    (h : p.Shift advance world w p' world') : p'.cost size < p.cost size := by
  rcases h.cost_cases size with ⟨hcost, -⟩ | ⟨job, progress, -, hadv, hcost⟩
  · exact hcost
  · have hlt : progress.cost size < size job := by
      simpa [hadv] using hsize job world
    omega

/-! ## What is taken and what is over -/

theorem Shift.queue_eq (h : p.Shift advance world w p' world') :
    p.queue = p.taking (.work w) ++ p'.queue := by
  cases h with
  | take hw hq => simp [taking, hw, hq, assign]
  | leave hw hq hc => simp [taking, hw, hq, assign]
  | advance hw hadv => simp [taking, hw, assign]
  | countPanic hw => simp [taking, hw, assign]
  | countEnd hw => simp [taking, hw, assign]

theorem Shift.sent_eq (h : p.Shift advance world w p' world') :
    p'.submitted + p'.uncounted = p.submitted + p.uncounted := by
  cases h <;> rfl

/-- The keys that run, where one worker comes from one job to another. -/
theorem running_set (key : ι → κ) {q : Pool ι} {x y : Worker ι} (hw : p.workers[w]? = some x)
    (hset : q.workers = p.workers.set w y) :
    (↑(q.running.map key) + ↑(x.job?.toList.map key) : Multiset κ) =
      ↑(p.running.map key) + ↑(y.job?.toList.map key) := by
  rcases exists_others hw with ⟨others, hrunning, hassign⟩
  have hafter : (q.running : Multiset ι) = ↑y.job?.toList + others := by
    rw [← hassign y, running, hset]
    rfl
  simp only [← Multiset.map_coe]
  rw [hafter, hrunning, Multiset.map_add, Multiset.map_add]
  ac_rfl

/-- If the steps of a job keep its key, what runs is what was taken and is not over. -/
theorem Shift.running_eq {key : ι → κ}
    (hkey : ∀ job world, (advance job world).1.left.map key ++
      (advance job world).1.outcome?.toList.map (fun _ => key job) = [key job])
    (h : p.Shift advance world w p' world') :
    (↑(p'.running.map key) + ↑((p.ending advance world (.work w)).map fun e => key e.1) :
        Multiset κ) =
      ↑(p.running.map key) + ↑((p.taking (.work w)).map key) := by
  cases h with
  | @take job rest hw hq =>
      simpa [taking, ending, hw, hq, Worker.job?] using running_set key hw (y := .busy job) rfl
  | leave hw hq hc =>
      simpa [taking, ending, hw, hq, Worker.job?] using running_set key hw (y := .gone) rfl
  | @advance job progress _ hw hadv =>
      have hset := running_set key hw (q := p.assign w (.after progress)) rfl
      rw [Worker.job?_after] at hset
      have hsplit := congrArg (Multiset.ofList (α := κ)) (hkey job world)
      rw [hadv, ← Multiset.coe_add] at hsplit
      have hending : (p.ending advance world (.work w)).map (fun e => key e.1) =
          progress.outcome?.toList.map fun _ => key job := by
        simp only [ending, hw, hadv, List.map_map]
        rfl
      have htaking : p.taking (.work w) = [] := by
        simp [taking, hw]
      rw [hending, htaking, List.map_nil, Multiset.coe_nil, add_zero]
      -- what goes on with the worker or is over is the job that the worker had
      refine add_right_cancel (b := (↑(progress.left.map key) : Multiset κ)) ?_
      rw [add_assoc, add_comm (Multiset.ofList _) (Multiset.ofList (progress.left.map key)), hsplit]
      exact hset
  | countPanic hw =>
      simpa [taking, ending, hw, Worker.job?] using running_set key hw (y := .finished true) rfl
  | countEnd hw =>
      simpa [taking, ending, hw, Worker.job?] using running_set key hw (y := .idle) rfl

theorem Shift.panicked_eq (h : p.Shift advance world w p' world') :
    p'.panicked + weight Worker.blown p'.workers =
      p.panicked + weight Worker.blown p.workers +
        (p.ending advance world (.work w)).countP Prod.snd := by
  -- a panic that is not counted yet is that of a worker who has blown up
  have hset {x : Worker ι} (hw : p.workers[w]? = some x) (y : Worker ι) :=
    weight_set Worker.blown hw y
  cases h with
  | @take job rest hw hq =>
      have hweight := hset hw (.busy job)
      simp only [Worker.blown, assign, ending, hw, List.countP_nil] at hweight ⊢
      omega
  | leave hw hq hc =>
      have hweight := hset hw .gone
      simp only [Worker.blown, assign, ending, hw, List.countP_nil] at hweight ⊢
      omega
  | @advance job progress _ hw hadv =>
      have hweight := hset hw (.after progress)
      have hout : (progress.outcome?.toList.map (job, ·)).countP Prod.snd =
          (Worker.after progress).blown := by
        rw [Worker.blown_after, List.countP_map]
        rfl
      simp only [ending, hw, hadv, hout]
      simp only [Worker.blown, assign] at hweight ⊢
      omega
  | countPanic hw =>
      have hweight := hset hw (.finished true)
      simp only [Worker.blown, assign, ending, hw, List.countP_nil] at hweight ⊢
      omega
  | countEnd hw =>
      have hweight := hset hw .idle
      simp only [Worker.blown, assign, ending, hw, List.countP_nil] at hweight ⊢
      omega

end Pool

namespace Book

/-! ## What the book says -/

structure Kept (threads : Nat) (b : Book ι ω) : Prop where
  threads : b.pool.threads = max threads 1
  staffed : b.pool.Staffed
  counted : b.pool.Counted
  sent : b.pool.submitted + b.pool.uncounted = b.accepted.length
  inOrder : b.taken ++ b.pool.queue = Ticket.row b.accepted
  once : (↑(b.pool.running.map Ticket.number) + ↑(b.ended.map Prod.fst) : Multiset Nat) =
    ↑(b.taken.map Ticket.number)
  panics : b.pool.panicked + weight Worker.blown b.pool.workers = b.ended.countP Prod.snd

variable {advance : ι → ω → Progress ι × ω} {threads : Nat} {b b' : Book ι ω} {m : Pool.Move ι}

theorem kept_new (threads : Nat) (world : ω) : (new threads world : Book ι ω).Kept threads where
  threads := by simp [new, Pool.new, Pool.threads]
  staffed := Pool.staffed_new threads
  counted := Pool.counted_new threads
  sent := rfl
  inOrder := rfl
  once := by simp [new, Pool.new, Pool.running, Worker.job?]
  panics := by
    have hidle :
        weight Worker.blown (List.replicate (max threads 1) (.idle : Worker (Ticket ι))) = 0 :=
      weight_eq_zero Worker.blown fun x hx => by rw [(List.mem_replicate.mp hx).2]; rfl
    simp [new, Pool.new, hidle]

/-- A worker hands a ticket from the queue to those that were taken, or from those that run to
those that are over. -/
theorem Kept.work (h : b.Kept threads) {w : Nat}
    (hstep : b.step? advance (.work w) = some b') : b'.Kept threads := by
  rcases Option.map_eq_some_iff.mp hstep with ⟨⟨p, world⟩, hwork, rfl⟩
  have hshift := Pool.work?_shift hwork
  refine ⟨hshift.threads_eq.trans h.threads, hshift.staffed h.staffed, hshift.counted h.counted,
    ?_, ?_, ?_, ?_⟩
  · simpa [Pool.Move.sent] using hshift.sent_eq.trans h.sent
  · have hqueue := h.inOrder
    rw [hshift.queue_eq] at hqueue
    simpa [Pool.Move.sent, Pool.Move.map] using hqueue
  · have hrunning := hshift.running_eq (Ticket.number_advance advance)
    have honce := h.once
    simp only [Pool.Move.map, List.map_append, List.map_map, ← Multiset.coe_add]
    rw [← honce, add_right_comm, ← hrunning, add_right_comm, ← add_assoc]
    rfl
  · have hpanicked := hshift.panicked_eq
    rw [h.panics] at hpanicked
    simp only [Pool.Move.map, List.countP_append, List.countP_map]
    exact hpanicked

theorem Kept.step (h : b.Kept threads) (hstep : b.step? advance m = some b') :
    b'.Kept threads := by
  cases m with
  | work w => exact h.work hstep
  | send job =>
      rcases Option.map_eq_some_iff.mp hstep with ⟨s, hsend, rfl⟩
      simp only [Pool.Move.map, Pool.step?, Option.ite_none_left_eq_some, Option.some.injEq]
        at hsend
      rcases hsend with ⟨hopen, rfl⟩
      have hsent := h.sent
      refine ⟨h.threads, ⟨h.staffed.manned, ?_⟩, h.counted.send _, ?_, ?_, ?_, ?_⟩
      · -- the pool is open, so nobody has left whom the job would miss
        intro x hx hgone
        exact absurd (h.staffed.stays x hx hgone).1 hopen
      · simp only [Pool.send, Pool.Move.sent, List.length_append, List.length_singleton]
        omega
      · simp [Pool.send, Pool.taking, Pool.Move.map, Pool.Move.sent, Ticket.row_snoc, ← h.inOrder]
      · simpa [Pool.send, Pool.running, Pool.taking, Pool.ending, Pool.Move.map] using h.once
      · simpa [Pool.send, Pool.ending, Pool.Move.map] using h.panics
  | tally =>
      rcases Option.map_eq_some_iff.mp hstep with ⟨s, htally, rfl⟩
      simp only [Pool.Move.map, Pool.step?, Option.ite_none_left_eq_some, Option.some.injEq]
        at htally
      rcases htally with ⟨hsome, rfl⟩
      have hsent := h.sent
      refine ⟨h.threads, ⟨h.staffed.manned, h.staffed.stays⟩, h.counted.tally (by omega),
        ?_, ?_, ?_, ?_⟩
      · simp only [Pool.tally, Pool.Move.sent, List.append_nil]
        omega
      · simpa [Pool.tally, Pool.taking, Pool.Move.map, Pool.Move.sent] using h.inOrder
      · simpa [Pool.tally, Pool.running, Pool.taking, Pool.ending, Pool.Move.map] using h.once
      · simpa [Pool.tally, Pool.ending, Pool.Move.map] using h.panics
  | close =>
      rcases Option.map_eq_some_iff.mp hstep with ⟨s, hclose, rfl⟩
      simp only [Pool.Move.map, Pool.step?, Option.ite_none_left_eq_some, Option.some.injEq]
        at hclose
      rcases hclose with ⟨-, rfl⟩
      refine ⟨h.threads, ⟨h.staffed.manned, fun x hx hgone => ?_⟩, h.counted, ?_, ?_, ?_, ?_⟩
      · exact ⟨rfl, (h.staffed.stays x hx hgone).2⟩
      · simpa [Pool.close, Pool.Move.sent] using h.sent
      · simpa [Pool.close, Pool.taking, Pool.Move.map, Pool.Move.sent] using h.inOrder
      · simpa [Pool.close, Pool.running, Pool.taking, Pool.ending, Pool.Move.map] using h.once
      · simpa [Pool.close, Pool.ending, Pool.Move.map] using h.panics

/-- Where nothing is queued and nobody has anything to do each job is over, and counted. -/
theorem Kept.settled (h : b.Kept threads) (hqueue : b.pool.queue = [])
    (hwaits : ∀ x ∈ b.pool.workers, x.isWaiting = true) :
    (b.ended.map Prod.fst).Perm (List.range b.accepted.length) ∧
      b.pool.completed = b.accepted.length ∧ b.pool.panicked = b.ended.countP Prod.snd := by
  -- workers that wait owe no count and have not blown up
  have hnothing {f : Worker (Ticket ι) → Nat} (hidle : f .idle = 0) (hgone : f .gone = 0) :
      weight f b.pool.workers = 0 := by
    refine weight_eq_zero f fun x hx => ?_
    cases x with
    | idle => exact hidle
    | gone => exact hgone
    | busy | unwound | finished => cases hwaits _ hx
  have hrunning : b.pool.running = [] := by
    refine List.filterMap_eq_nil_iff.mpr fun x hx => ?_
    cases x with
    | busy => cases hwaits _ hx
    | idle | gone | unwound | finished => rfl
  refine ⟨?_, ?_, ?_⟩
  · have htaken := h.inOrder
    rw [hqueue, List.append_nil] at htaken
    have honce := h.once
    rw [hrunning, htaken, Ticket.map_number_row] at honce
    simpa using honce
  · have hcounted := h.counted
    have hsent := h.sent
    have howed := hnothing (f := Worker.owed) rfl rfl
    simp only [Pool.Counted, hqueue, List.length_nil, howed] at hcounted
    omega
  · simpa [hnothing (f := Worker.blown) rfl rfl] using h.panics

/-- The workers of a pool whose jobs have an end come to the end of all that was accepted. -/
theorem Kept.drains (h : b.Kept threads) {size : ι → Nat}
    (hsize : ∀ job world, (advance job world).1.cost size < size job) :
    Inevitable (fun b w => b.step? advance (.work w)) (fun b' : Book ι ω => b'.pool.Drained ∧
      b'.accepted = b.accepted ∧
      (b'.ended.map Prod.fst).Perm (List.range b.accepted.length)) b := by
  have hticket (t : Ticket ι) (world : ω) :
      (t.advance advance world).1.cost (size ∘ Ticket.job) < (size ∘ Ticket.job) t := by
    have hlt := hsize t.job world
    rcases hadv : advance t.job world with ⟨progress, world'⟩
    rw [hadv] at hlt
    cases progress <;> simpa [Ticket.advance, hadv, Progress.map, Progress.cost] using hlt
  refine Inevitable.of_progress
    (P := fun b' : Book ι ω => b'.Kept threads ∧ b'.accepted = b.accepted)
    (fun b' => b'.pool.cost (size ∘ Ticket.job)) ?_ ?_ ?_ ⟨h, rfl⟩
  · rintro b₁ b₂ w ⟨hkept, haccepted⟩ hstep
    refine ⟨hkept.work hstep, ?_⟩
    rcases Option.map_eq_some_iff.mp hstep with ⟨s, -, rfl⟩
    simpa [Pool.Move.sent] using haccepted
  · rintro b₁ b₂ w - hstep
    rcases Option.map_eq_some_iff.mp hstep with ⟨s, hwork, rfl⟩
    exact (Pool.work?_shift hwork).cost_lt hticket
  · -- a book that is not at the goal has a pool that is not drained
    rintro b₁ ⟨hkept, haccepted⟩ hgoal
    have hdrained : ¬ b₁.pool.Drained := by
      intro hdrained
      refine hgoal ⟨hdrained, haccepted, ?_⟩
      rw [← haccepted]
      refine (hkept.settled hdrained.1 fun x hx => ?_).1
      rw [hdrained.2 x hx]
      cases b₁.pool.closed <;> rfl
    rcases hkept.staffed.exists_work? hdrained with ⟨w, p, world, hwork⟩
    exact ⟨w, _, Option.map_eq_some_iff.mpr ⟨(p, world), hwork, rfl⟩⟩

end Book

namespace Pool

variable {advance : ι → ω → Progress ι × ω}

/-- The jobs that a pool accepts are taken in the order in which they were sent, and each is queued,
with one worker, or over.  There are as many workers as in the beginning, and none leaves while the
pool is open or a job is queued, whatever panics.  The counters agree with the jobs where the pool
is quiet, and where all its workers have left each job is over.  If each job has an end, the
workers come to the end of all of them. -/
theorem jobs_run_once {threads : Nat} {world₀ world : ω} {ms : List (Move ι)} {p : Pool ι}
    (hmoves : ms.foldlM (moved? advance) (new threads, world₀) = some (p, world)) :
    ∃ b : Book ι ω, ms.foldlM (Book.step? advance) (.new threads world₀) = some b ∧
      b.plain = (p, world) ∧ b.accepted = ms.flatMap Move.sent ∧
      b.taken ++ b.pool.queue = Ticket.row b.accepted ∧
      (b.pool.running.map Ticket.number ++ b.ended.map Prod.fst).Perm
        (b.taken.map Ticket.number) ∧
      p.threads = max threads 1 ∧ p.running.length ≤ max threads 1 ∧
      (∀ x ∈ p.workers, x = .gone → p.closed = true ∧ p.queue = []) ∧
      (p.isQuiet = true → (b.ended.map Prod.fst).Perm (List.range b.accepted.length) ∧
        p.submitted = b.accepted.length ∧ p.completed = b.accepted.length ∧
        p.panicked = b.ended.countP Prod.snd) ∧
      ((∀ x ∈ p.workers, x = .gone) → (b.ended.map Prod.fst).Perm (List.range b.accepted.length) ∧
        p.completed = b.accepted.length ∧ p.panicked = b.ended.countP Prod.snd) ∧
      ∀ size : ι → Nat, (∀ job world, (advance job world).1.cost size < size job) →
        Inevitable (fun b w => b.step? advance (.work w)) (fun b' : Book ι ω => b'.pool.Drained ∧
          b'.accepted = b.accepted ∧
          (b'.ended.map Prod.fst).Perm (List.range b.accepted.length)) b := by
  rw [← Book.plain_new, Book.moves_eq] at hmoves
  rcases Option.map_eq_some_iff.mp hmoves with ⟨b, hbook, hplain⟩
  have h : b.Kept threads :=
    Run.preserves Book.Kept.step (Run.of_moves hbook) (Book.kept_new threads world₀)
  cases hplain
  have hthreads : (b.pool.map Ticket.job).threads = max threads 1 :=
    (List.length_map _).trans h.threads
  refine ⟨b, hbook, rfl, ?_, h.inOrder, ?_, hthreads, ?_, ?_, ?_, ?_, ?_⟩
  · simpa [Book.new] using Book.accepted_of_moves hbook
  · simpa using h.once
  · exact hthreads ▸ List.length_filterMap_le ..
  · intro x hx hleft
    rcases List.mem_map.mp hx with ⟨y, hy, rfl⟩
    have hstays := h.staffed.stays y hy (Worker.map_eq_gone.mp hleft)
    simpa [map] using hstays
  · intro hquiet
    rw [isQuiet_map] at hquiet
    simp only [isQuiet, Bool.and_eq_true, List.isEmpty_iff, List.all_eq_true, beq_iff_eq] at hquiet
    rcases hquiet with ⟨⟨hqueue, hwaits⟩, huncounted⟩
    rcases h.settled hqueue hwaits with ⟨hover, hcompleted, hpanicked⟩
    have hsent := h.sent
    rw [huncounted, Nat.add_zero] at hsent
    exact ⟨hover, hsent, hcompleted, hpanicked⟩
  · intro hleft
    have hall : ∀ x ∈ b.pool.workers, x = .gone := fun x hx =>
      Worker.map_eq_gone.mp (hleft _ (List.mem_map_of_mem hx))
    rcases List.exists_mem_of_ne_nil _ h.staffed.manned with ⟨x, hx⟩
    exact h.settled (h.staffed.stays x hx (hall x hx)).2 fun y hy => by rw [hall y hy]; rfl
  · intro size hsize
    exact h.drains hsize

/-! ## An example -/

/-- Two workers share a job that panics and two that do not; the last job is still queued when the
pool is closed. -/
def closing : List (Move (Routine Nat)) :=
  [.send ⟨[7], false⟩, .tally, .send ⟨[], true⟩, .work 0, .work 1, .work 1, .tally,
    .send ⟨[8], false⟩, .tally, .close] ++ List.replicate 7 (.work 1) ++ List.replicate 4 (.work 0)

theorem cost_routine (r : Routine κ) (history : List κ) :
    (r.advance history).1.cost Routine.size < r.size := by
  rcases r with ⟨effects, panics⟩
  cases effects with
  | cons effect left => simp [Routine.advance, Routine.size, Progress.cost]
  | nil => cases panics <;> simp [Routine.advance, Routine.size, Progress.cost]

theorem jobs_run_once_closing :
    ∃ (b₁ b : Book (Routine Nat) (List Nat)) (p : Pool (Routine Nat)),
      (closing.take 10).foldlM (Book.step? Routine.advance) (.new 2 []) = some b₁ ∧
      Inevitable (fun b w => b.step? Routine.advance (.work w))
        (fun b' => b'.pool.Drained ∧ b'.accepted = b₁.accepted ∧
          (b'.ended.map Prod.fst).Perm (List.range b₁.accepted.length)) b₁ ∧
      closing.foldlM (moved? Routine.advance) (new 2, []) = some (p, [8, 7]) ∧
      b.taken = Ticket.row [⟨[7], false⟩, ⟨[], true⟩, ⟨[8], false⟩] ∧
      b.ended = [(1, true), (2, false), (0, false)] ∧ p.workers = [.gone, .gone] ∧
      (b.ended.map Prod.fst).Perm (List.range 3) ∧ p.stats = ⟨2, 3, 3, 1⟩ := by
  obtain ⟨s, hfirst⟩ :
      ∃ s, (closing.take 10).foldlM (moved? Routine.advance) (new 2, []) = some s := ⟨_, rfl⟩
  obtain ⟨b, p, hmoves, hbook, haccepted, htaken, hover, hquiet, hleft⟩ :
      ∃ (b : Book (Routine Nat) (List Nat)) (p : Pool (Routine Nat)),
        closing.foldlM (moved? Routine.advance) (new 2, []) = some (p, [8, 7]) ∧
        closing.foldlM (Book.step? Routine.advance) (.new 2 []) = some b ∧
        b.accepted = [⟨[7], false⟩, ⟨[], true⟩, ⟨[8], false⟩] ∧
        b.taken = Ticket.row [⟨[7], false⟩, ⟨[], true⟩, ⟨[8], false⟩] ∧
        b.ended = [(1, true), (2, false), (0, false)] ∧ p.isQuiet = true ∧
        p.workers = [.gone, .gone] :=
    ⟨_, _, rfl, rfl, rfl, rfl, rfl, rfl, rfl⟩
  rcases jobs_run_once hfirst with ⟨b₁, hbook₁, -, -, -, -, -, -, -, -, -, hdrains⟩
  rcases jobs_run_once hmoves with ⟨b', hbook', -, -, -, -, hthreads, -, -, hcounted, -, -⟩
  cases hbook.symm.trans hbook'
  rcases hcounted hquiet with ⟨hperm, hsubmitted, hcompleted, hpanicked⟩
  rw [haccepted] at hperm hsubmitted hcompleted
  rw [hover] at hpanicked
  refine ⟨b₁, b, p, hbook₁, hdrains _ cost_routine, hmoves, htaken, hover, hleft, hperm, ?_⟩
  rw [stats, hthreads, hsubmitted, hcompleted, hpanicked]
  rfl

end Pool

end ScatterGather
