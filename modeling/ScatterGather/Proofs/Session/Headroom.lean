import ScatterGather.Proofs.Engine.Rest
import ScatterGather.Proofs.Grouping.Connecting
import ScatterGather.Proofs.Pool.Draining
import ScatterGather.Proofs.Session.Query

/-!
# Headroom — a worker for every group

A pool has at least as many workers as a statement may use connections, and a call has at most one
group for each of these.  While no other call is on the engine, whoever takes a job out of the queue
leaves workers enough for the jobs behind it, so no group waits for another one to end.

* `Pool.load`, `Engine.load` : the jobs that occupy a worker or will occupy one;
* `Engine.step?_load` : no move of an engine makes more of them;
* `Pool.length_queue_le` : workers that can carry the load are free for all that is queued;
* `Grouping.length_le_poolSize` : the groups of a route against the size of the pool;
* `Session.sealed?` : the steps of a session that takes no more calls;
* `Session.no_group_waits` : a call on an engine at rest.
-/

namespace ScatterGather

variable {κ α ω ι : Type}

/-! ## Workers -/

namespace Worker

/-- A worker either waits or owes a completion. -/
theorem owed_add_waiting (workers : List (Worker ι)) :
    weight Worker.owed workers + workers.countP Worker.isWaiting = workers.length := by
  induction workers with
  | nil => rfl
  | cons x rest ih =>
      rw [weight_cons, List.countP_cons, List.length_cons]
      cases x with
      | idle | gone => simp only [owed, isWaiting, if_true]; omega
      | busy | unwound | finished =>
          simp only [owed, isWaiting, Bool.false_eq_true, if_false]
          omega

end Worker

namespace Pool

variable {advance : ι → ω → Progress ι × ω} {p p' : Pool ι} {world world' : ω} {w : Nat}

/-- The jobs that were sent and are not counted as completed. -/
def load (p : Pool ι) : Nat :=
  p.queue.length + weight Worker.owed p.workers

theorem Fed.load_eq {new : List ι} (h : p.Fed new p') : p'.load = p.load + new.length := by
  cases h with
  | same | counted => rfl
  | sent job =>
      simp only [load, send, List.length_append]
      omega

/-- Workers send nothing, and what they count is off their hands. -/
theorem Shift.load_le (h : p.Shift advance world w p' world') (hc : p.Counted) :
    p'.load ≤ p.load := by
  have hc' := h.counted hc
  have hsent := h.sent_eq
  -- what was sent is either on the pool or counted as completed, and no count is taken back
  have hrises : p.completed ≤ p'.completed := by
    cases h <;> simp [assign]
  simp only [Counted] at hc hc'
  simp only [load]
  omega

/-- Each job that is queued has a worker of its own that waits for it. -/
theorem length_queue_le (hload : p.load ≤ p.threads) :
    p.queue.length ≤ p.workers.countP Worker.isWaiting := by
  have hall := Worker.owed_add_waiting p.workers
  simp only [load, threads] at hload
  omega

theorem Serving.exists_idle (hs : p.Serving) (hpos : 0 < p.workers.countP Worker.isWaiting) :
    ∃ w : Nat, p.workers[w]? = some .idle := by
  rcases List.countP_pos_iff.mp hpos with ⟨x, hx, hwaits⟩
  rcases List.getElem?_of_mem hx with ⟨w, hw⟩
  refine ⟨w, hw.trans ?_⟩
  cases x with
  | idle => rfl
  | gone => exact absurd rfl (hs.present _ hx)
  | busy | unwound | finished => cases hwaits

end Pool

/-! ## Engines -/

/-- The jobs that the caller has still to send. -/
def Call.unsent (c : Call κ α) : Nat :=
  c.phase.left.length

namespace Call

theorem unsent_new_le (policy : Policy) (queryId : Nat) (batches : List (Batch κ α)) :
    (Call.new policy queryId batches).unsent ≤ batches.length := by
  by_cases hzero : (batches.flatMap (·.units)).length = 0
  · -- without a unit nothing is sent at all
    simp only [unsent, new, hzero, if_true]
    exact Nat.zero_le _
  · simp only [unsent, new, hzero, if_false, Phase.left_submitting, List.length_map,
      List.length_zipIdx]
    exact Nat.le_refl _

theorem unsent_of_returned {c : Call κ α} (h : c.isReturned = true) : c.unsent = 0 := by
  cases hp : c.phase <;> simp_all [isReturned, unsent]

/-- A caller sends what it had to send. -/
theorem Turn.unsent_le {k : Nat} {quiet : Prop} {c c' : Call κ α} {new : List (Job κ α)}
    (h : c.Turn k quiet c' new) : c'.unsent + new.length ≤ c.unsent := by
  cases h with
  | submit hp => simp [unsent, hp]
  | count hp => simp [unsent, hp]
  | listen => simp [unsent]
  | @gather r rest hp hi =>
      rcases gather_phase { c with inbox := rest } r with ⟨hphase, -⟩ | ⟨answer, hphase, -⟩
      · -- the caller goes on gathering, or it returns
        have hgathering := hphase.trans hp
        simp [unsent, hgathering]
      · simp [unsent, hphase]
  | stop => simp [unsent, finish]

end Call

namespace Engine

variable {note : Occurrence κ α → ω → ω} {e e' : Engine κ α ω} {threads : Nat}

/-- The jobs on the pool and those that are still to be sent to it. -/
def load (e : Engine κ α ω) : Nat :=
  e.pool.load + weight Call.unsent e.calls

/-- Only a call that begins adds to the load. -/
theorem step?_load {m : Move} (hcounted : e.Counted threads) (h : e.step? note m = some e') :
    e'.load ≤ e.load := by
  cases m with
  | caller k =>
      rcases callerStep?_turn h with ⟨c, c', new, hc, hturn, hcalls, hfed, -⟩
      -- a job that the caller sends is off its hands and on the pool
      have hset := weight_set Call.unsent hc c'
      have hsent := hturn.unsent_le
      have hpool := hfed.load_eq
      simp only [load, hcalls]
      omega
  | worker w =>
      have hunsent : weight Call.unsent e'.calls = weight Call.unsent e.calls := by
        rcases workerStep?_turn h with
          ⟨hcalls, -⟩ | ⟨j, others, p, c, c', os, -, hc, hturn, hcalls, -⟩
        · rw [hcalls]
        · -- a job does not change what its caller is about to do
          have hset := weight_set Call.unsent hc c'
          have hsame : c'.unsent = c.unsent := by rw [Call.unsent, hturn.phase_eq, Call.unsent]
          rw [hcalls]
          omega
      simp only [step?, Option.map_eq_some_iff] at h
      rcases h with ⟨⟨pool, calls, world⟩, hwork, rfl⟩
      have hpool := (Pool.work?_shift hwork).load_le hcounted.pool
      simp only [load] at hunsent ⊢
      omega

theorem AtRest.load_eq (h : e.AtRest threads) : e.load = 0 := by
  have howed : weight Worker.owed e.pool.workers = 0 :=
    Pool.owed_idle fun x hx => (List.mem_replicate.mp (h.workers ▸ hx)).2
  have hunsent : weight Call.unsent e.calls = 0 := by
    refine weight_eq_zero Call.unsent fun c hc => Call.unsent_of_returned ?_
    rcases List.getElem?_of_mem hc with ⟨k, hk⟩
    simpa [isReturned, hk] using h.returned k
  simp only [load, Pool.load, h.queue, List.length_nil, howed, hunsent]

end Engine

/-! ## Groups -/

/-- A configuration without a connection gets one, and one without workers gets at least as many as
connections. -/
theorem Grouping.length_le_poolSize {b : Backend} {options : StatementOptions} {w w' : World}
    {config : Config} {route : List RouteUnit} {gs : List (Group Connection BoundUnit)}
    (parallelism : Nat)
    (h : (group (World.binder b options) config.maxConnections route).run w = (.ok gs, w')) :
    gs.length ≤ max (config.poolSize parallelism) 1 := by
  have hcap := length_le_cap h
  simp only [Config.poolSize]
  omega

/-! ## Sessions -/

namespace Session

variable {β : Type} {s s' : Session β}

/-- The steps of a session that takes no more calls. -/
def sealed? (s : Session β) (m : Step β) : Option (Session β) :=
  match m with
  | .begin _ _ => none
  | _ => s.step? m

theorem sealed?_step {m : Step β} (h : s.sealed? m = some s') :
    s.step? m = some s' ∧ ∀ x kind, m ≠ .begin x kind := by
  cases m with
  | begin x kind => cases h
  | engine | conclude | insert | remove | clear | setRethrow | beginSweep | sweep =>
      exact ⟨h, by simp⟩

theorem Turn.counted {m : Step β} {threads : Nat} (h : s.Turn s' m)
    (hcounted : s.engine.Counted threads) : s'.engine.Counted threads := by
  have hsame (w : World) : (s.engine.withWorld w).Counted threads :=
    ⟨hcounted.pool, hcounted.callers, hcounted.threads⟩
  cases h with
  | @accept x kind w policy queryId batches i grown below fresh engine issued =>
      have hbegin : (s.engine.withWorld w).act? noteWorld (.begin policy queryId batches) =
          some s'.engine := by
        rw [engine]
        rfl
      exact (hsame w).act hbegin
  | move engine issued => exact hcounted.step engine
  | @collect n answer e w collect grown engine issued =>
      have hact : s.engine.act? noteWorld (.collect n) = some e := by
        rw [Engine.act?, collect]
        rfl
      have hnext := hcounted.act hact
      rw [engine]
      exact ⟨hnext.pool, hnext.callers, hnext.threads⟩
  | @tend m w tended engine issued => exact engine ▸ hsame w

theorem counted_of_run {threads : Nat} {backend : Backend} {executors : List Executor}
    {recorders : Nat} (h : Run step? (Session.start threads backend executors recorders) s) :
    s.engine.Counted (max threads 1) :=
  Run.preserves (P := fun s => s.engine.Counted (max threads 1))
    (fun hs hstep => (step?_turn hstep).counted hs) h (Engine.counted_new threads _)

theorem Turn.load_le {m : Step β} {threads : Nat} (h : s.Turn s' m)
    (hcounted : s.engine.Counted threads) (hnone : ∀ x kind, m ≠ .begin x kind) :
    s'.engine.load ≤ s.engine.load := by
  cases h with
  | accept => exact absurd rfl (hnone _ _)
  | move engine issued => exact Engine.step?_load hcounted engine
  | @collect n answer e w collect grown engine issued =>
      rcases Engine.collect_eq_some collect with ⟨c, hc, hp, rfl⟩
      -- whoever has returned has nothing to send, before and after the answer is taken
      have hset := weight_set Call.unsent hc { c with phase := .over }
      have hold : c.unsent = 0 := Call.unsent_of_returned (by simp [Call.isReturned, hp])
      have hnew : ({ c with phase := .over } : Call Effect Output).unsent = 0 := rfl
      rw [engine]
      simp only [Engine.load, Engine.withWorld, Engine.setCall]
      omega
  | tend tended engine issued => exact Nat.le_of_eq (congrArg (fun e => e.load) engine)

/-- A call adds its groups to the load, and a refused one adds nothing. -/
theorem open_load_le (x : Nat) {e : Executor} (kind : EntryPoint) {n : Nat}
    (hgroups : ∀ groups w, s.Grouped e groups w → groups.length ≤ n) :
    (s.open x e kind).2.engine.load ≤ s.engine.load + n := by
  rcases hg : (Grouping.group (World.binder s.backend e.options) e.cap e.route).run s.world with
    ⟨result, w⟩
  cases result with
  | error refusal =>
      rw [open_error x kind hg]
      exact Nat.le_add_right _ _
  | ok groups =>
      have hle := hgroups groups w hg
      have hnew := Call.unsent_new_le s.policy (s.snapshots + 1)
        (groups.map (batchOf s.backend (s.assignment x e kind)))
      rw [List.length_map] at hnew
      rw [open_ok x kind hg]
      simp only [Engine.load, Engine.start, Engine.withWorld, weight_append, weight_cons,
        weight_nil]
      omega

/-- The workers can carry all that is on the engine. -/
structure Roomy (threads : Nat) (s : Session β) : Prop where
  sound : s.Sound
  counted : s.engine.Counted threads
  load : s.engine.load ≤ threads

namespace Roomy

variable {threads : Nat}

theorem sealed {m : Step β} (h : s.Roomy threads) (hstep : s.sealed? m = some s') :
    s'.Roomy threads := by
  rcases sealed?_step hstep with ⟨hm, hnone⟩
  have hturn := step?_turn hm
  exact ⟨h.sound.turn hturn, hturn.counted h.counted,
    (hturn.load_le h.counted hnone).trans h.load⟩

theorem length_queue_le (h : s.Roomy threads) :
    s.engine.pool.queue.length ≤ s.engine.pool.workers.countP Worker.isWaiting := by
  refine Pool.length_queue_le ?_
  rw [h.counted.threads]
  exact (Nat.le_add_right _ _).trans h.load

theorem exists_idle {j : Job Effect Output} (h : s.Roomy threads)
    (hj : j ∈ s.engine.pool.queue) : ∃ w : Nat, s.engine.pool.workers[w]? = some .idle :=
  h.sound.service.serving.exists_idle
    ((List.length_pos_of_mem hj).trans_le h.length_queue_le)

end Roomy

/-- Whatever the configuration says and whatever the route is, a call that begins on an engine at
rest has no more groups than there are workers.  As long as no other call begins, every job that is
queued has a worker of its own that waits for it, however callers and workers take turns.  So while
a job of the call is queued some worker runs no job. -/
theorem no_group_waits {config : Config} {parallelism : Nat} {backend : Backend}
    {executors : List Executor} {recorders : Nat} (x : Nat) (kind : EntryPoint)
    (sqlType : SqlType) (route : List RouteUnit) (bus : Bus)
    (hrun : Run step? (Session.start (config.poolSize parallelism) backend executors recorders) s)
    (hrest : s.engine.AtRest s.engine.pool.threads) :
    (∀ groups w, s.Grouped (.ofConfig config sqlType route bus) groups w →
      groups.length ≤ s.engine.pool.threads) ∧
    ∀ s', Run sealed? (s.open x (.ofConfig config sqlType route bus) kind).2 s' →
      s'.engine.pool.threads = s.engine.pool.threads ∧
      s'.engine.pool.queue.length ≤ s'.engine.pool.workers.countP Worker.isWaiting ∧
      ((∃ j ∈ s'.engine.pool.queue, j.call = s.engine.calls.length) →
        ∃ w : Nat, s'.engine.pool.workers[w]? = some .idle) := by
  have hsound := sound_of_run hrun
  have hcounted := counted_of_run hrun
  have hgroups : ∀ groups w, s.Grouped (.ofConfig config sqlType route bus) groups w →
      groups.length ≤ s.engine.pool.threads := by
    intro groups w h
    rw [hcounted.threads]
    exact Grouping.length_le_poolSize parallelism h
  refine ⟨hgroups, fun s' hlater => ?_⟩
  have hturn : s.Turn (s.open x (.ofConfig config sqlType route bus) kind).2 (.begin x kind) :=
    turn_of_open
  -- an engine at rest carries nothing but the groups of the call that begins on it
  have hload := open_load_le x kind hgroups
  rw [hrest.load_eq, Nat.zero_add] at hload
  rw [← hcounted.threads] at hcounted
  have hroomy : s'.Roomy s.engine.pool.threads :=
    Run.preserves Roomy.sealed hlater ⟨hsound.turn hturn, hturn.counted hcounted, hload⟩
  refine ⟨hroomy.counted.threads, hroomy.length_queue_le, ?_⟩
  rintro ⟨j, hj, -⟩
  exact hroomy.exists_idle hj

end Session

/-! ## An example -/

/-- Two connections for a statement, and one worker. -/
def Config.narrow : Config :=
  { maxConnections := 2, threads := 1 }

/-- The three targets on the connections that are left. -/
def Executor.narrow : Executor :=
  .ofConfig .narrow .dql Executor.triple.route .empty

namespace Session

def narrow : Session Unit :=
  start (Config.narrow.poolSize 8) .willing [.narrow] 0

/-- Both groups are sent, and one of the workers takes the first. -/
def sending : List (Step Unit) :=
  List.replicate 3 (.engine (.caller 0)) ++ [.engine (.worker 0)]

theorem no_group_waits_narrow : ∃ s' : Session Unit,
    Run step? narrow narrow ∧ narrow.engine.AtRest narrow.engine.pool.threads ∧
      Run sealed? (narrow.open 0 .narrow .update).2 s' ∧ s'.engine.pool.threads = 2 ∧
      s'.engine.pool.queue.length = 1 ∧ s'.engine.pool.running.length = 1 ∧
      ∃ w : Nat, s'.engine.pool.workers[w]? = some .idle := by
  have hsteps : (sending.foldlM sealed? (narrow.open 0 .narrow .update).2).map
      (fun s' => (s'.engine.pool.queue.map Job.call, s'.engine.pool.running.length)) =
        some ([0], 1) := by
    decide +kernel
  rcases Option.map_eq_some_iff.mp hsteps with ⟨s', hsteps, hend⟩
  rcases Prod.mk.inj hend with ⟨hqueue, hrunning⟩
  have hlater : Run sealed? (narrow.open 0 .narrow .update).2 s' := .of_moves hsteps
  have hrest : narrow.engine.AtRest narrow.engine.pool.threads :=
    ⟨fun _ => rfl, rfl, rfl, rfl, rfl⟩
  have hqueued : ∃ j ∈ s'.engine.pool.queue, j.call = 0 :=
    List.mem_map.mp (hqueue ▸ List.mem_singleton_self 0)
  have hrun : Run step? (start (Config.poolSize .narrow 8) .willing [.narrow] 0) narrow := .refl
  rcases (no_group_waits 0 .update .dql Executor.triple.route .empty hrun hrest).2 s' hlater with
    ⟨hthreads, -, hidle⟩
  exact ⟨s', hrun, hrest, hlater, hthreads, by simpa using congrArg List.length hqueue, hrunning,
    hidle hqueued⟩

end Session

end ScatterGather
