import ScatterGather.Proofs.Pool.Draining

/-!
# Lag — how far the counters of a pool are behind its jobs

A job is in the queue before it is counted as submitted, and its panic is counted before its
completion.  So the counters of a pool that is at work need not be in order: a job may be counted
as completed that is not yet counted as submitted, and a panic of a job that is not yet counted as
completed.  What is under way makes up for the difference.

* `Worker.closing` : the panic that a worker has counted in front of its completion;
* `Pool.Change` : everything that a move can do to a pool;
* `Pool.Trailing` : what the counters say together with all that is under way;
* `Pool.Trailing.change`, `Pool.Change.rises`, `Pool.Change.sent_eq` : one move;
* `Pool.counters_lag` : the counters of a pool, whether they are read at once or one by one;
* `Pool.counters_out_of_order` : both of the differences occur.
-/

namespace ScatterGather

variable {ι ω : Type}

namespace Worker

/-- Whether a worker has counted a panic and has still to count the completion. -/
def closing : Worker ι → Nat
  | finished true => 1
  | _ => 0

end Worker

namespace Pool

variable {advance : ι → ω → Progress ι × ω} {p p' : Pool ι} {world world' : ω}

/-! ## One move -/

/-- Everything that one move can do. -/
inductive Change (advance : ι → ω → Progress ι × ω) (p : Pool ι) (world : ω) :
    Move ι → Pool ι → ω → Prop
  | send (job : ι) : Change advance p world (.send job) (p.send job) world
  | tally (hsent : 0 < p.uncounted) : Change advance p world .tally p.tally world
  | close : Change advance p world .close p.close world
  | work {w : Nat} {p' : Pool ι} {world' : ω} (h : p.Shift advance world w p' world') :
      Change advance p world (.work w) p' world'

theorem moved?_change {m : Move ι} (h : moved? advance (p, world) m = some (p', world')) :
    p.Change advance world m p' world' := by
  cases m with
  | work w => exact .work (work?_shift h)
  | send job =>
      simp only [moved?, step?, Option.ite_none_left_eq_some, Option.some.injEq,
        Prod.mk.injEq] at h
      rcases h with ⟨-, rfl, rfl⟩
      exact .send job
  | tally =>
      simp only [moved?, step?, Option.ite_none_left_eq_some, Option.some.injEq,
        Prod.mk.injEq] at h
      rcases h with ⟨hsent, rfl, rfl⟩
      exact .tally (Nat.pos_of_ne_zero hsent)
  | close =>
      simp only [moved?, step?, Option.ite_none_left_eq_some, Option.some.injEq,
        Prod.mk.injEq] at h
      rcases h with ⟨-, rfl, rfl⟩
      exact .close

structure Trailing (p : Pool ι) : Prop where
  counted : p.Counted
  panics : p.panicked ≤ p.completed + weight Worker.closing p.workers

theorem trailing_new (threads : Nat) : (new threads : Pool ι).Trailing :=
  ⟨counted_new threads, Nat.zero_le _⟩

/-- A worker makes up for a panic until it counts its completion, and from then on the counter
does. -/
theorem Shift.panics_le {w : Nat} (h : p.Shift advance world w p' world')
    (hpanics : p.panicked ≤ p.completed + weight Worker.closing p.workers) :
    p'.panicked ≤ p'.completed + weight Worker.closing p'.workers := by
  have hset {x : Worker ι} (hw : p.workers[w]? = some x) (y : Worker ι) :=
    weight_set Worker.closing hw y
  cases h with
  | @take job rest hw hq =>
      have hweight := hset hw (.busy job)
      simp only [Worker.closing, assign] at hweight ⊢
      omega
  | leave hw hq hclosed =>
      have hweight := hset hw .gone
      simp only [Worker.closing, assign] at hweight ⊢
      omega
  | @advance job progress _ hw hadv =>
      have hweight := hset hw (.after progress)
      simp only [Worker.closing, assign] at hweight ⊢
      omega
  | countPanic hw =>
      -- the worker whose panic is counted has its completion still to count
      have hweight := hset hw (.finished true)
      simp only [Worker.closing, assign] at hweight ⊢
      omega
  | @countEnd panicked hw =>
      have hweight := hset hw .idle
      cases panicked <;> simp only [Worker.closing, assign] at hweight ⊢ <;> omega

theorem Trailing.change {m : Move ι} (h : p.Trailing) (hm : p.Change advance world m p' world') :
    p'.Trailing := by
  cases hm with
  | send job => exact ⟨h.counted.send job, h.panics⟩
  | tally hsent => exact ⟨h.counted.tally hsent, h.panics⟩
  | close => exact ⟨h.counted, h.panics⟩
  | work hshift => exact ⟨hshift.counted h.counted, hshift.panics_le h.panics⟩

/-- No counter falls. -/
def Rises (p p' : Pool ι) : Prop :=
  p.submitted ≤ p'.submitted ∧ p.completed ≤ p'.completed ∧ p.panicked ≤ p'.panicked

theorem Rises.trans {p₁ p₂ p₃ : Pool ι} (h₁ : p₁.Rises p₂) (h₂ : p₂.Rises p₃) : p₁.Rises p₃ :=
  ⟨h₁.1.trans h₂.1, h₁.2.1.trans h₂.2.1, h₁.2.2.trans h₂.2.2⟩

theorem Change.rises {m : Move ι} (hm : p.Change advance world m p' world') : p.Rises p' := by
  cases hm with
  | send | tally | close => simp [Rises, Pool.send, Pool.tally, Pool.close]
  | work hshift => cases hshift <;> simp [Rises, assign]

theorem Change.sent_eq {m : Move ι} (hm : p.Change advance world m p' world') :
    p'.submitted + p'.uncounted = p.submitted + p.uncounted + m.sent.length := by
  cases hm with
  | send job => rfl
  | tally hsent =>
      simp only [Pool.tally, Move.sent, List.length_nil]
      omega
  | close => rfl
  | work hshift => exact hshift.sent_eq

/-! ## One state -/

/-- Where every job that was sent is counted as submitted, no more are counted as completed. -/
theorem Trailing.completed_le (h : p.Trailing) (hsent : p.uncounted = 0) :
    p.completed ≤ p.submitted := by
  have hcounted := h.counted
  simp only [Counted, hsent] at hcounted
  omega

/-- Where no worker stands between its two counts every panic is that of a completed job. -/
theorem Trailing.panicked_le (h : p.Trailing) (hnone : ∀ x ∈ p.workers, x ≠ .finished true) :
    p.panicked ≤ p.completed := by
  have hclosing : weight Worker.closing p.workers = 0 := by
    refine weight_eq_zero Worker.closing fun x hx => ?_
    cases x with
    | finished panicked =>
        cases panicked with
        | false => rfl
        | true => exact absurd rfl (hnone _ hx)
    | idle | busy | unwound | gone => rfl
  have hpanics := h.panics
  rwa [hclosing] at hpanics

theorem Trailing.of_quiet (h : p.Trailing) (hquiet : p.isQuiet = true) :
    p.panicked ≤ p.completed ∧ p.completed = p.submitted := by
  simp only [isQuiet, Bool.and_eq_true, List.isEmpty_iff, List.all_eq_true, beq_iff_eq] at hquiet
  rcases hquiet with ⟨⟨hqueue, hwaits⟩, hsent⟩
  have howed : weight Worker.owed p.workers = 0 := by
    refine weight_eq_zero Worker.owed fun x hx => ?_
    cases x with
    | idle | gone => rfl
    | busy | unwound | finished => cases hwaits _ hx
  refine ⟨h.panicked_le fun x hx hfinished => ?_, ?_⟩
  · subst hfinished
    cases hwaits _ hx
  · have hcounted := h.counted
    simp only [Counted, hqueue, hsent, howed, List.length_nil] at hcounted
    omega

/-! ## Runs -/

theorem rises_of_moves {ms : List (Move ι)} {s s' : Pool ι × ω}
    (h : ms.foldlM (moved? advance) s = some s') : s.1.Rises s'.1 := by
  refine Run.preserves (P := fun t => s.1.Rises t.1) ?_ (Run.of_moves h) ⟨le_rfl, le_rfl, le_rfl⟩
  intro t t' m hrises hm
  exact hrises.trans (moved?_change hm).rises

theorem sent_of_moves {ms : List (Move ι)} {s s' : Pool ι × ω}
    (h : ms.foldlM (moved? advance) s = some s') :
    s'.1.submitted + s'.1.uncounted =
      s.1.submitted + s.1.uncounted + (ms.flatMap Move.sent).length := by
  induction ms generalizing s with
  | nil =>
      cases h
      rfl
  | cons m ms ih =>
      rcases Option.bind_eq_some_iff.mp h with ⟨t, hm, hrest⟩
      rw [ih hrest, (moved?_change hm).sent_eq, List.flatMap_cons, List.length_append, add_assoc]

theorem trailing_of_moves {ms : List (Move ι)} {threads : Nat} {s : Pool ι × ω}
    (h : ms.foldlM (moved? advance) (new threads, world) = some s) : s.1.Trailing :=
  Run.preserves (P := fun t : Pool ι × ω => t.1.Trailing)
    (fun ht hm => ht.change (moved?_change hm)) (Run.of_moves h) (trailing_new threads)

/-- The jobs that were sent are counted as completed, queued or with a worker, so no more are
counted as completed than were sent; and no more panics are counted in advance of a completion than
there are workers that have counted a panic and not yet the completion.  So the counters are in
order where every job that was sent is counted and no worker stands between these two counts, as in
a pool at rest.  A reader that loads one counter after the other while the pool goes on sees no
counter fall, and the jobs that are sent or completed in the meantime add to the differences. -/
theorem counters_lag {threads : Nat} {ms₁ ms₂ ms₃ : List (Move ι)} {s₁ s₂ s₃ : Pool ι × ω}
    (h₁ : ms₁.foldlM (moved? advance) (new threads, world) = some s₁)
    (h₂ : ms₂.foldlM (moved? advance) s₁ = some s₂)
    (h₃ : ms₃.foldlM (moved? advance) s₂ = some s₃) :
    (s₁.1.submitted + s₁.1.uncounted =
        s₁.1.completed + s₁.1.queue.length + weight Worker.owed s₁.1.workers ∧
      s₁.1.completed ≤ s₁.1.submitted + s₁.1.uncounted ∧
      s₁.1.panicked ≤ s₁.1.completed + weight Worker.closing s₁.1.workers ∧
      (s₁.1.uncounted = 0 → s₁.1.completed ≤ s₁.1.submitted) ∧
      ((∀ x ∈ s₁.1.workers, x ≠ .finished true) → s₁.1.panicked ≤ s₁.1.completed) ∧
      (s₁.1.isQuiet = true →
        s₁.1.panicked ≤ s₁.1.completed ∧ s₁.1.completed = s₁.1.submitted)) ∧
    s₁.1.Rises s₂.1 ∧ s₂.1.Rises s₃.1 ∧
    s₂.1.completed ≤ s₁.1.submitted + s₁.1.uncounted + (ms₂.flatMap Move.sent).length ∧
    s₃.1.panicked ≤ s₂.1.completed + (s₃.1.completed - s₂.1.completed) +
      weight Worker.closing s₃.1.workers := by
  have htrail₁ := trailing_of_moves h₁
  have hrun₂ : (ms₁ ++ ms₂).foldlM (moved? advance) (new threads, world) = some s₂ := by
    rw [List.foldlM_append, h₁]
    exact h₂
  have hrun₃ : (ms₁ ++ ms₂ ++ ms₃).foldlM (moved? advance) (new threads, world) = some s₃ := by
    rw [List.foldlM_append, hrun₂]
    exact h₃
  have hcounted₁ : s₁.1.submitted + s₁.1.uncounted =
      s₁.1.completed + s₁.1.queue.length + weight Worker.owed s₁.1.workers := htrail₁.counted
  have hcounted₂ : s₂.1.submitted + s₂.1.uncounted =
      s₂.1.completed + s₂.1.queue.length + weight Worker.owed s₂.1.workers :=
    (trailing_of_moves hrun₂).counted
  have hsent₂ := sent_of_moves h₂
  have hpanics₃ := (trailing_of_moves hrun₃).panics
  refine ⟨⟨hcounted₁, by omega, htrail₁.panics, htrail₁.completed_le, htrail₁.panicked_le,
    htrail₁.of_quiet⟩, rises_of_moves h₂, rises_of_moves h₃, by omega, by omega⟩

/-! ## An example -/

/-- One worker: it is done with a job that panicked before the submitter has counted the job. -/
def hasty : List (Move (Routine Nat)) :=
  [.send ⟨[], true⟩, .work 0, .work 0, .work 0, .work 0]

theorem counters_lag_hasty :
    ∃ s₁ s₂ s₃ : Pool (Routine Nat) × List Nat,
      (hasty.take 4).foldlM (moved? Routine.advance) (new 1, []) = some s₁ ∧
      [Move.tally, .send ⟨[7], false⟩].foldlM (moved? Routine.advance) s₁ = some s₂ ∧
      [Move.work 0, .tally].foldlM (moved? Routine.advance) s₂ = some s₃ ∧
      s₁.1.stats = ⟨1, 0, 0, 1⟩ ∧ s₁.1.panicked ≤ s₁.1.completed + 1 ∧ s₂.1.completed ≤ 2 ∧
      s₃.1.stats = ⟨1, 2, 1, 1⟩ ∧ s₃.1.panicked ≤ s₂.1.completed + 1 := by
  obtain ⟨s₁, s₂, s₃, h₁, h₂, h₃, hfirst, hlast, hclosing, hstarted, hidle⟩ :
      ∃ s₁ s₂ s₃ : Pool (Routine Nat) × List Nat,
        (hasty.take 4).foldlM (moved? Routine.advance) (new 1, []) = some s₁ ∧
        [Move.tally, .send ⟨[7], false⟩].foldlM (moved? Routine.advance) s₁ = some s₂ ∧
        [Move.work 0, .tally].foldlM (moved? Routine.advance) s₂ = some s₃ ∧
        s₁.1.stats = ⟨1, 0, 0, 1⟩ ∧ s₃.1.stats = ⟨1, 2, 1, 1⟩ ∧
        weight Worker.closing s₁.1.workers = 1 ∧ s₁.1.submitted + s₁.1.uncounted = 1 ∧
        weight Worker.closing s₃.1.workers = 0 :=
    ⟨_, _, _, rfl, rfl, rfl, rfl, rfl, rfl, rfl, rfl⟩
  rcases counters_lag h₁ h₂ h₃ with ⟨⟨-, -, hpanics, -⟩, -, -, hcompleted, hread⟩
  rw [hclosing] at hpanics
  rw [hstarted] at hcompleted
  rw [hidle] at hread
  have hcompleted₃ : s₃.1.completed = 1 := congrArg Stats.completed hlast
  exact ⟨s₁, s₂, s₃, h₁, h₂, h₃, hfirst, hpanics, hcompleted, hlast, by omega⟩

/-- The panic is counted before the completion, and the completion before the submission. -/
theorem counters_out_of_order :
    (∃ s, (hasty.take 4).foldlM (moved? Routine.advance) (new 1, []) = some s ∧
      s.1.stats = ⟨1, 0, 0, 1⟩ ∧ ¬ s.1.panicked ≤ s.1.completed) ∧
    ∃ s, hasty.foldlM (moved? Routine.advance) (new 1, []) = some s ∧
      s.1.stats = ⟨1, 0, 1, 1⟩ ∧ ¬ s.1.completed ≤ s.1.submitted :=
  ⟨⟨_, rfl, rfl, by decide⟩, ⟨_, rfl, rfl, by decide⟩⟩

end Pool

end ScatterGather
