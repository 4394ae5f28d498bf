import ScatterGather.Proofs.Session.Journal

/-!
# Exclusion — a connection for one job at a time, and so for one call

Every group has a connection of its own and one job at most.  A unit makes its call on that
connection and ends it before it does anything else, so the world, which counts the calls that begin
while another one is made on the same connection, counts none.

* `Engine.nodup_keys` : no batch has two jobs;
* `Journal.Tells.nodup_connections` : no connection has two jobs;
* `Effect.Matched` : calls that end right behind their beginning;
* `Engine.Watched` : what the world knows of the calls that are being made;
* `Session.watched_of_run` : in every session it has seen none overlap.
-/

namespace ScatterGather

namespace Engine

variable {κ α ω : Type} {e : Engine κ α ω}

/-! ## Batches -/

/-- The jobs of a call, when told apart by their batches, are so in any order. -/
theorem nodup_batches (h : ∀ k, ((e.jobsOf k).map Job.batch).Nodup) (k : Nat) :
    ((e.jobs.filter fun j => j.call = k).map Job.batch).Nodup := by
  have hk : (e.jobsOf k).map Job.batch =
      ↑((e.jobs.filter fun j => j.call = k).map Job.batch) := by
    rw [← Multiset.map_coe, ← Multiset.filter_coe]
    rfl
  exact Multiset.coe_nodup.mp (hk ▸ h k)

/-- Where no call has two jobs for one batch, jobs are told apart by call and batch. -/
theorem nodup_keys (h : ∀ k, ((e.jobsOf k).map Job.batch).Nodup) :
    (e.jobs.map fun j => (j.call, j.batch)).Nodup := by
  have hlist := nodup_batches h
  generalize e.jobs = js at hlist
  induction js with
  | nil => exact List.nodup_nil
  | cons j js ih =>
      refine List.nodup_cons.mpr ⟨?_, ih fun k => ?_⟩
      · -- another job of the batch would be found among those of the call
        intro hmem
        rcases List.mem_map.mp hmem with ⟨j', hj', hsame⟩
        rw [Prod.mk.injEq] at hsame
        have hcall := hlist j.call
        rw [List.filter_cons_of_pos (by simp), List.map_cons, List.nodup_cons] at hcall
        exact hcall.1 (List.mem_map.mpr ⟨j', List.mem_filter.mpr ⟨hj', by simpa using hsame.1⟩,
          hsame.2⟩)
      · exact (hlist k).sublist (((List.sublist_cons_self j js).filter _).map _)

end Engine

/-! ## Calls of a unit -/

namespace Effect

def begins? : Effect → Option Statement
  | beginCall _ s => some s
  | _ => none

def ends? : Effect → Option Statement
  | endCall _ s => some s
  | _ => none

/-- The statement whose call begins or ends, or whose cursor is read. -/
def serves? : Effect → Option Statement
  | beginCall _ s => some s
  | endCall _ s => some s
  | readCursor handle => some handle.statement
  | _ => none

/-- The statement of the call that is being made, if all that is left to do is `xs`. -/
def entered? (xs : List Effect) : Option Statement :=
  xs.head?.bind ends?

/-- Every call ends right behind its beginning, and no other call ends. -/
def Matched : List Effect → Prop
  | [] => True
  | x :: xs => entered? xs = x.begins? ∧ Matched xs

/-- Neither begins a call nor ends one. -/
def IsQuiet (x : Effect) : Prop :=
  x.begins? = none ∧ x.ends? = none

theorem serves?_of_begins {x : Effect} {st : Statement} (h : x.begins? = some st) :
    x.serves? = some st := by
  cases x with
  | beginCall => exact h
  | announce | endCall | openCursor | trackStatement | trackCursor | readCursor | countUnit =>
      cases h

theorem serves?_of_ends {x : Effect} {st : Statement} (h : x.ends? = some st) :
    x.serves? = some st := by
  cases x with
  | endCall => exact h
  | announce | beginCall | openCursor | trackStatement | trackCursor | readCursor | countUnit =>
      cases h

theorem passage_cases (x : Effect) : (∃ st, x.begins? = some st ∧ x.ends? = none) ∨
    (∃ st, x.ends? = some st ∧ x.begins? = none) ∨ x.IsQuiet := by
  cases x with
  | beginCall kind s => exact .inl ⟨s, rfl, rfl⟩
  | endCall kind s => exact .inr (.inl ⟨s, rfl, rfl⟩)
  | announce | openCursor | trackStatement | trackCursor | readCursor | countUnit =>
      exact .inr (.inr ⟨rfl, rfl⟩)

namespace Matched

variable {xs ys : List Effect}

theorem of_append (h : Matched (xs ++ ys)) : Matched ys := by
  induction xs with
  | nil => exact h
  | cons x xs ih => exact ih h.2

theorem append (hxs : ∀ x ∈ xs, x.IsQuiet) (hys : Matched ys) (hnone : entered? ys = none) :
    Matched (xs ++ ys) ∧ entered? (xs ++ ys) = none := by
  induction xs with
  | nil => exact ⟨hys, hnone⟩
  | cons x xs ih =>
      rcases ih fun y hy => hxs y (List.mem_cons_of_mem x hy) with ⟨hmatched, hfirst⟩
      rcases hxs x (List.mem_cons_self ..) with ⟨hbegins, hends⟩
      exact ⟨⟨hfirst.trans hbegins.symm, hmatched⟩, hends⟩

end Matched

end Effect

namespace Assignment

variable {b : Backend} {a : Assignment} {u : Placed BoundUnit} {x : Effect}

/-- A unit calls its own statement, and reads no cursor but that of it. -/
theorem statement_of_serves {st : Statement} (hx : x ∈ (a.work b u).effects)
    (hst : x.serves? = some st) : st = u.unit.statement := by
  cases does_of_mem hx with
  | beginCall => exact (Option.some.inj hst).symm
  | endCall => exact (Option.some.inj hst).symm
  | readCursor => exact (Option.some.inj hst).symm
  | announce | openCursor | trackStatement | trackCursor | countUnit => cases hst

theorem Notes.isQuiet (h : a.Notes x) : x.IsQuiet := by
  cases h with
  | announce | countUnit => exact ⟨rfl, rfl⟩

theorem isQuiet_afterCall (hx : x ∈ (a.afterCall b u).1) : x.IsQuiet := by
  rcases afterCall_cases b a u with ⟨-, cursor, n, -, hafter⟩ | ⟨-, hafter⟩
  · rw [hafter] at hx
    simp only [List.mem_cons] at hx
    rcases hx with rfl | rfl | rfl | hx
    · exact ⟨rfl, rfl⟩
    · exact ⟨rfl, rfl⟩
    · exact ⟨rfl, rfl⟩
    · rw [(List.mem_replicate.mp hx).2]
      exact ⟨rfl, rfl⟩
  · rw [hafter] at hx
    cases hx

/-- A unit makes one call, and ends it at once. -/
theorem work_matched (b : Backend) (a : Assignment) (u : Placed BoundUnit) :
    Effect.Matched (a.work b u).effects ∧ Effect.entered? (a.work b u).effects = none := by
  have htail : ∀ x ∈ (a.afterCall b u).1 ++ a.conclude u (a.afterCall b u).2, x.IsQuiet := by
    intro x hx
    rcases List.mem_append.mp hx with hx | hx
    · exact isQuiet_afterCall hx
    · exact (notes_conclude hx).isQuiet
  rcases @Effect.Matched.append _ [] htail trivial rfl with ⟨hmatched, hfirst⟩
  rw [List.append_nil] at hmatched hfirst
  exact Effect.Matched.append (fun x hx => (notes_announce hx).isQuiet) ⟨rfl, hfirst, hmatched⟩ rfl

end Assignment

/-! ## Connections -/

namespace Journal.Tells

variable {β : Type} {s : Session β} {j : Journal} {threads : Nat}

/-- Every job is one of a group, on the connection of that, and goes along its units. -/
theorem job_placed (h : j.Tells threads s) {job : Job Effect Output} (hjob : job ∈ s.engine.jobs) :
    ∃ o g, j.calls[job.call]? = some o ∧ o.groups[job.batch]? = some g ∧
      job.connection = g.connection ∧ ∃ abort, (o.task s.backend job.call).lane job.batch
        (Session.batchOf s.backend o.assignment g) |>.At abort job.stage job.rest
          (History.trail job.batch (History.ofCall job.call j.past)) := by
  rcases h.job_orderly hjob with ⟨o, sh, ho, horderly, hmem, hhistory⟩
  rcases horderly.placed job hmem with ⟨batch, hbatch, hconnection⟩
  rcases horderly.valid.working job hmem with ⟨-, batch', hbatch', hat⟩
  have hsame : batch' = batch := Option.some.inj (hbatch'.symm.trans hbatch)
  subst hsame
  rcases Opened.getElem?_batches.mp hbatch with ⟨g, hg, rfl⟩
  rw [hhistory] at hat
  exact ⟨o, g, ho, hg, hconnection, _, hat⟩

/-- No batch has two jobs. -/
theorem nodup_batches (h : j.Tells threads s) (k : Nat) :
    ((s.engine.jobsOf k).map Job.batch).Nodup := by
  by_cases hlt : k < j.calls.length
  · rcases h.orderly (List.getElem?_eq_getElem hlt) with ⟨sh, horderly, hjobs, -⟩
    have hdistinct := (Multiset.nodup_add.mp horderly.valid.distinct).2.1
    rwa [hjobs] at hdistinct
  · -- there are no jobs of calls that were never opened
    have hnone : s.engine.jobsOf k = 0 := by
      apply Multiset.filter_eq_nil.mpr
      rintro job hjob rfl
      exact hlt (h.length_eq ▸ h.sound.service.known job hjob)
    simp [hnone]

/-- No connection has two jobs. -/
theorem nodup_connections (h : j.Tells threads s) :
    (s.engine.jobs.map fun job => job.connection.id).Nodup := by
  have hkeys := Engine.nodup_keys h.nodup_batches
  rw [List.Nodup, List.pairwise_map] at hkeys ⊢
  refine hkeys.imp_of_mem ?_
  intro job job' hjob hjob' hne hsame
  rcases h.job_placed hjob with ⟨o, g, ho, hg, hconnection, -⟩
  rcases h.job_placed hjob' with ⟨o', g', ho', hg', hconnection', -⟩
  rw [hconnection, hconnection'] at hsame
  exact hne (congrArg Prod.fst (h.place_eq (mem_places ho hg) (mem_places ho' hg') hsame))

/-- A job that is at work has run the units in front of one of its group, and what it has still to
do for that is the end of what the unit does. -/
theorem exists_unit (h : j.Tells threads s) {job : Job Effect Output} (hjob : job ∈ s.engine.jobs)
    (hne : job.stage.todo ≠ []) :
    ∃ o g front u back performed, j.calls[job.call]? = some o ∧ o.groups[job.batch]? = some g ∧
      g.units = front ++ u :: back ∧ job.connection = g.connection ∧
      (∀ v ∈ front, (o.assignment.work s.backend v).outcome ≠ .panic) ∧
      (o.assignment.work s.backend u).effects = performed ++ job.stage.todo ∧
      History.effects (History.trail job.batch (History.ofCall job.call j.past)) =
        (front.flatMap fun v => (o.assignment.work s.backend v).effects) ++ performed := by
  rcases h.job_placed hjob with ⟨o, g, ho, hg, hconnection, abort, hat⟩
  rcases job with ⟨call, batch, connection, stage, rest⟩
  generalize History.trail batch (History.ofCall call j.past) = past at hat ⊢
  cases hat with
  | checking | skipping | reporting | draining => exact absurd rfl hne
  | @running ran _ w performed left units passes effects =>
      have hunits : g.units.map (o.assignment.work s.backend) = ran ++ w :: rest := units
      rcases List.map_eq_append_iff.mp hunits with ⟨front, behind, hgunits, rfl, hbehind⟩
      rcases List.map_eq_cons_iff.mp hbehind with ⟨u, back, rfl, rfl, -⟩
      exact ⟨o, g, front, u, back, performed, ho, hg, hgunits, hconnection,
        fun v hv => (passes _ (List.mem_map_of_mem hv)).ne_panic, effects,
        by simp [List.flatMap_map]⟩

/-- The call of a unit is made on the connection of its job. -/
theorem todo_connection (h : j.Tells threads s) {job : Job Effect Output}
    (hjob : job ∈ s.engine.jobs) {x : Effect} (hx : x ∈ job.stage.todo) {st : Statement}
    (hst : x.serves? = some st) : st.connection = job.connection := by
  rcases h.exists_unit hjob (List.ne_nil_of_mem hx) with
    ⟨o, g, front, u, back, performed, ho, hg, hunits, hconnection, -, heffects, -⟩
  have hxu : x ∈ (o.assignment.work s.backend u).effects := by
    rw [heffects]
    exact List.mem_append_right performed hx
  have hu : u ∈ g.units := by simp [hunits]
  rw [Assignment.statement_of_serves hxu hst, (h.bound ho (List.mem_of_getElem? hg) hu).2.2,
    hconnection]

theorem todo_matched (h : j.Tells threads s) {job : Job Effect Output}
    (hjob : job ∈ s.engine.jobs) : Effect.Matched job.stage.todo := by
  by_cases hne : job.stage.todo = []
  · rw [hne]
    trivial
  · rcases h.exists_unit hjob hne with
      ⟨o, g, front, u, back, performed, -, -, -, -, -, heffects, -⟩
    have hmatched := (Assignment.work_matched s.backend o.assignment u).1
    rw [heffects] at hmatched
    exact hmatched.of_append

/-- No unit starts in the middle of a call. -/
theorem rest_entered (h : j.Tells threads s) {job : Job Effect Output}
    (hjob : job ∈ s.engine.jobs) {w : Work Effect Output} (hw : w ∈ job.rest) :
    Effect.entered? w.effects = none := by
  rcases h.job_placed hjob with ⟨o, g, -, -, -, abort, hat⟩
  rcases List.mem_map.mp (hat.mem_units hw) with ⟨u, -, rfl⟩
  exact (Assignment.work_matched s.backend o.assignment u).2

end Journal.Tells

/-! ## The count of overlaps -/

namespace World

variable {w : World} {x : Effect} {st : Statement}

theorem perform_begins (h : x.begins? = some st) :
    (w.perform x).calling = st.connection.id :: w.calling ∧
      (st.connection.id ∉ w.calling → (w.perform x).overlaps = w.overlaps) := by
  cases x with
  | beginCall kind s =>
      cases h
      refine ⟨rfl, ?_⟩
      intro hfree
      simp [perform, hfree]
  | announce | endCall | openCursor | trackStatement | trackCursor | readCursor | countUnit =>
      cases h

theorem perform_ends (h : x.ends? = some st) :
    (w.perform x).calling = w.calling.erase st.connection.id ∧
      (w.perform x).overlaps = w.overlaps := by
  cases x with
  | endCall kind s =>
      cases h
      exact ⟨rfl, rfl⟩
  | announce | beginCall | openCursor | trackStatement | trackCursor | readCursor | countUnit =>
      cases h

theorem perform_quiet (h : x.IsQuiet) :
    (w.perform x).calling = w.calling ∧ (w.perform x).overlaps = w.overlaps := by
  cases x with
  | beginCall => cases h.1
  | endCall => cases h.2
  | readCursor handle => cases hc : w.cursor? handle <;> simp [perform, hc, setCursor]
  | announce | openCursor | trackStatement | trackCursor | countUnit => exact ⟨rfl, rfl⟩

end World

/-- The connections on which one of the jobs is making a call. -/
def calledOn (js : Multiset (Job Effect Output)) : Multiset Nat :=
  (js.filterMap fun j => Effect.entered? j.stage.todo).map fun st => st.connection.id

section

variable {j : Job Effect Output} {js : Multiset (Job Effect Output)} {st : Statement}

theorem calledOn_cons_none (h : Effect.entered? j.stage.todo = none) :
    calledOn (j ::ₘ js) = calledOn js := by
  rw [calledOn, Multiset.filterMap_cons_none j js h, calledOn]

theorem calledOn_cons_some (h : Effect.entered? j.stage.todo = some st) :
    calledOn (j ::ₘ js) = st.connection.id ::ₘ calledOn js := by
  rw [calledOn, Multiset.filterMap_cons_some _ j js h, Multiset.map_cons, calledOn]

theorem calledOn_add_of_none {new : List (Job Effect Output)}
    (h : ∀ j ∈ new, Effect.entered? j.stage.todo = none) :
    calledOn (↑new + js) = calledOn js := by
  induction new with
  | nil => simp
  | cons j new ih =>
      rw [← Multiset.cons_coe, Multiset.cons_add, calledOn_cons_none (h j (by simp)),
        ih fun j' hj' => h j' (by simp [hj'])]

end

theorem Stage.todo_afterReport {κ α : Type} (policy : Policy) (result : Except ExecutionError α) :
    (Stage.afterReport policy result : Stage κ α).todo = [] := by
  cases result <;> cases policy <;> rfl

/-- A job performs one effect, or it does nothing that has to do with a call. -/
theorem Job.Turn.performs_or_quiet {j : Job Effect Output} {c c' : Call Effect Output}
    {p : Progress (Job Effect Output)} {os : History Effect Output} (ht : j.Turn c p c' os)
    (hrest : ∀ w ∈ j.rest, Effect.entered? w.effects = none) :
    (∃ u x left, j.stage = .running u (x :: left) ∧
      p.left = [{ j with stage := .running u left }] ∧ History.effects os = [x]) ∨
    Effect.entered? j.stage.todo = none ∧ History.effects os = [] ∧
      ∀ j' ∈ p.left, Effect.entered? j'.stage.todo = none := by
  cases ht with
  | perform hs => exact .inl ⟨_, _, _, hs, rfl, rfl⟩
  | @start u rest hs hr hp =>
      refine .inr ⟨by rw [hs]; rfl, rfl, ?_⟩
      intro j' hj'
      rw [List.mem_singleton.mp hj']
      exact hrest u (by simp [hr])
  | depart hs hl => exact .inr ⟨by rw [hs]; rfl, rfl, by simp [Progress.left]⟩
  | done hs | panic hs | drained hs =>
      exact .inr ⟨by rw [hs]; rfl, rfl, by simp [Progress.left]⟩
  | skip hs | succeed hs | fail hs | reportSkip hs | drain hs =>
      refine .inr ⟨by rw [hs]; rfl, rfl, ?_⟩
      intro j' hj'
      rw [List.mem_singleton.mp hj']
      rfl
  | @report u result hs hl =>
      refine .inr ⟨by rw [hs]; rfl, rfl, ?_⟩
      intro j' hj'
      rw [List.mem_singleton.mp hj', Stage.todo_afterReport]
      rfl

/-- The world knows on which connections calls are being made, and has seen no two on one. -/
structure Engine.Watched (e : Engine Effect Output World) : Prop where
  calling : (e.world.calling : Multiset Nat) = calledOn e.pool.jobs
  overlaps : e.world.overlaps = 0

namespace Engine.Watched

variable {e e' : Engine Effect Output World} {j : Job Effect Output}
  {others : Multiset (Job Effect Output)} {c c' : Call Effect Output}
  {p : Progress (Job Effect Output)} {os : History Effect Output}

/-- A call begins where no other is made, and it ends before anything else happens. -/
theorem work (h : e.Watched) (hj : e.pool.jobs = j ::ₘ others) (ht : j.Turn c p c' os)
    (hworld : e'.world = History.replay Session.noteWorld os e.world)
    (hpool : e'.pool.jobs = ↑p.left + others) (hmatched : Effect.Matched j.stage.todo)
    (hrest : ∀ w ∈ j.rest, Effect.entered? w.effects = none)
    (hfree : ∀ x ∈ j.stage.todo, ∀ st, x.begins? = some st →
      st.connection.id ∉ calledOn others) : e'.Watched := by
  rw [Session.replay_eq_foldl] at hworld
  have hcalling := h.calling
  rw [hj] at hcalling
  rcases ht.performs_or_quiet hrest with ⟨u, x, left, hs, hleft, hos⟩ | ⟨hnone, hos, hnew⟩
  · rw [hos, List.foldl_cons, List.foldl_nil] at hworld
    rw [hs] at hmatched hfree
    have hnext : Effect.entered? ({ j with stage := .running u left } : Job _ Output).stage.todo =
        x.begins? := hmatched.1
    have hnow : Effect.entered? j.stage.todo = x.ends? := by rw [hs]; rfl
    have hjobs : calledOn e'.pool.jobs =
        calledOn ({ j with stage := .running u left } ::ₘ others) := by
      rw [hpool, hleft]
      rfl
    rcases x.passage_cases with ⟨st, hbegins, hends⟩ | ⟨st, hends, hbegins⟩ | hquiet
    · rcases World.perform_begins (w := e.world) hbegins with ⟨hcalls, hcount⟩
      have hfresh := hfree x (List.mem_cons_self ..) st hbegins
      rw [calledOn_cons_none (hnow.trans hends)] at hcalling
      rw [← hcalling, Multiset.mem_coe] at hfresh
      refine ⟨?_, by rw [hworld, hcount hfresh, h.overlaps]⟩
      rw [hworld, hcalls, hjobs, calledOn_cons_some (hnext.trans hbegins), ← hcalling]
      rfl
    · rcases World.perform_ends (w := e.world) hends with ⟨hcalls, hcount⟩
      rw [calledOn_cons_some (hnow.trans hends)] at hcalling
      refine ⟨?_, by rw [hworld, hcount, h.overlaps]⟩
      rw [hworld, hcalls, hjobs, calledOn_cons_none (hnext.trans hbegins), ← Multiset.coe_erase,
        hcalling, Multiset.erase_cons_head]
    · rcases World.perform_quiet (w := e.world) hquiet with ⟨hcalls, hcount⟩
      rw [calledOn_cons_none (hnow.trans hquiet.2)] at hcalling
      refine ⟨?_, by rw [hworld, hcount, h.overlaps]⟩
      rw [hworld, hcalls, hjobs, calledOn_cons_none (hnext.trans hquiet.1), hcalling]
  · rw [hos, List.foldl_nil] at hworld
    rw [calledOn_cons_none hnone] at hcalling
    exact ⟨by rw [hworld, hpool, calledOn_add_of_none hnew, hcalling], by rw [hworld, h.overlaps]⟩

end Engine.Watched

namespace Session

variable {β : Type} {s s' : Session β} {j j' : Journal} {threads : Nat}

/-- Nothing but the engine itself makes calls or ends them. -/
theorem watched_of_tended {m : Step β} (h : s.engine.Watched) (hstep : s.step? m = some s')
    (hm : ∀ m', m ≠ .engine m') : s'.engine.Watched := by
  have hkept (w : World) (hpool : s'.engine.pool = s.engine.pool) (hworld : s'.world = w)
      (hcalling : w.calling = s.world.calling) (hcount : w.overlaps = s.world.overlaps) :
      s'.engine.Watched := by
    subst hworld
    refine ⟨?_, hcount.trans h.overlaps⟩
    rw [hpool, ← h.calling]
    exact congrArg _ hcalling
  cases m with
  | engine m' => exact absurd rfl (hm m')
  | begin x kind =>
      rcases begin_eq_some hstep with ⟨calls, issued, w, hw, rfl⟩
      exact hkept w rfl rfl (congrArg World.calling hw :) (congrArg World.overlaps hw :)
  | conclude n =>
      rcases Option.map_eq_some_iff.mp hstep with ⟨⟨r, s₁⟩, hconclude, rfl⟩
      rcases conclude_eq_some hconclude with ⟨i, c, answer, success, -, -, -, -, rfl⟩
      exact hkept _ rfl rfl rfl rfl
  | sweep i =>
      rcases sweepStep?_eq_some hstep with ⟨x, sweep, sweep', r, w, -, hw, rfl⟩
      exact hkept w rfl rfl (congrArg World.calling hw :) (congrArg World.overlaps hw :)
  | insert | remove | clear | setRethrow | beginSweep =>
      cases hstep
      exact h

/-- A job that is about to begin a call is the only one on its connection. -/
theorem calledOn_free (h : j.Tells threads s) {job : Job Effect Output}
    {others : Multiset (Job Effect Output)} (hjobs : s.engine.pool.jobs = job ::ₘ others)
    {x : Effect} (hx : x ∈ job.stage.todo) {st : Statement} (hst : x.begins? = some st) :
    st.connection.id ∉ calledOn others := by
  have hmem : ∀ job', job' ∈ job ::ₘ others → job' ∈ s.engine.jobs := fun job' hjob' =>
    Multiset.mem_coe.mp (hjobs ▸ hjob' : job' ∈ s.engine.pool.jobs)
  have hdistinct : ((job ::ₘ others).map fun job => job.connection.id).Nodup := by
    rw [← hjobs]
    exact Multiset.coe_nodup.mpr h.nodup_connections
  rw [Multiset.map_cons, Multiset.nodup_cons] at hdistinct
  intro hcalled
  rcases Multiset.mem_map.mp hcalled with ⟨st', hst', hsame⟩
  rcases (Multiset.mem_filterMap ..).mp hst' with ⟨job', hjob', hentered⟩
  rcases Option.bind_eq_some_iff.mp hentered with ⟨x', hx', hends⟩
  have hthere := h.todo_connection (hmem job' (Multiset.mem_cons_of_mem hjob'))
    (List.mem_of_mem_head? hx') (Effect.serves?_of_ends hends)
  have hhere := h.todo_connection (hmem job (Multiset.mem_cons_self ..)) hx
    (Effect.serves?_of_begins hst)
  apply hdistinct.1
  rw [← hhere, ← hsame, hthere]
  exact Multiset.mem_map_of_mem _ hjob'

theorem watched_moved {m : Move} {e' : Engine Effect Output World} (h : j.Tells threads s)
    (hw : s.engine.Watched) (hstep : s.engine.step? noteWorld m = some e') : e'.Watched := by
  cases m with
  | caller k =>
      rcases Engine.callerStep?_turn hstep with ⟨c, c', new, -, hturn, -, hfed, hworld⟩
      have hnew : ∀ job ∈ new, Effect.entered? job.stage.todo = none := by
        cases hturn with
        | submit hp => simp [Job.ofBatch, Stage.todo, Effect.entered?]
        | count | listen | gather | stop => simp
      refine ⟨?_, by rw [hworld, hw.overlaps]⟩
      rw [hworld, hfed.jobs_eq, calledOn_add_of_none hnew, hw.calling]
  | worker w =>
      rcases Engine.workerStep?_turn hstep with
        ⟨-, hworld, hsame | ⟨job, hnone, hdrop⟩⟩ |
          ⟨job, others, p, c, c', os, hjobs, -, hturn, -, hworld, hpool⟩
      · exact ⟨by rw [hworld, hsame, hw.calling], by rw [hworld, hw.overlaps]⟩
      · -- no job is without its call
        have hlt := h.sound.service.known job (by simp [hdrop])
        rw [List.getElem?_eq_getElem hlt] at hnone
        cases hnone
      · have hmem : job ∈ s.engine.jobs :=
          Multiset.mem_coe.mp (hjobs ▸ Multiset.mem_cons_self .. : job ∈ s.engine.pool.jobs)
        exact hw.work hjobs hturn hworld hpool (h.todo_matched hmem)
          (fun w hw => h.rest_entered hmem hw) fun x hx st hst => calledOn_free h hjobs hx hst

theorem watched_of_run {backend : Backend} {executors : List Executor} {recorders : Nat}
    (hrun : Run journaled? (Session.start threads backend executors recorders, .empty) (s, j)) :
    s.engine.Watched := by
  have hboth : j.Tells threads s ∧ s.engine.Watched := by
    refine Run.preserves (P := fun r : Session β × Journal => r.2.Tells threads r.1 ∧
      r.1.engine.Watched) ?_ hrun ⟨tells_start threads backend executors recorders, ?_⟩
    · rintro ⟨s, j⟩ ⟨s', j'⟩ m ⟨htells, hwatched⟩ hstep
      rcases journaled?_eq_some.mp hstep with ⟨hm, rfl⟩
      refine ⟨htells.step hm, ?_⟩
      by_cases hmove : ∃ m', m = .engine m'
      · rcases hmove with ⟨m', rfl⟩
        rcases Option.map_eq_some_iff.mp hm with ⟨e', hmoved, rfl⟩
        exact watched_moved htells hwatched hmoved
      · exact watched_of_tended hwatched hm fun m' heq => hmove ⟨m', heq⟩
    · -- at first there are no jobs
      refine ⟨?_, rfl⟩
      have hnone : (Pool.new threads : Pool (Job Effect Output)).jobs = 0 := Pool.jobs_new threads
      rw [Session.start, Engine.new, hnone]
      rfl
  exact hboth.2

end Session

end ScatterGather
