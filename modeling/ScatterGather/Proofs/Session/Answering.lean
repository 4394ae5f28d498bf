import ScatterGather.Proofs.Engine.Returns
import ScatterGather.Proofs.Session.Waiting

/-!
# Answering — a call from its opening to its response

A call that is opened brings a task to the engine, cut out of its route without loss.  It returns,
whatever the others do in the session meanwhile, and what its client then takes is the answer of the
engine, merged.  Here the answers of the engine become responses, by nothing but the units of the
call.

* `Session.task` : the call that an executor brings to the engine;
* `Session.exists_answered` : the answer that the engine has for it;
* `Session.Yields` : every run from the opening of a call comes to a response with a property;
* `Session.yields_of_answered` : it has the property if every answer to its task leads to it;
* `Share.Answered.judged_of` : where the answer is determined by the units;
* `Session.yields_judged` : the responses of calls whose answer is.
-/

namespace ScatterGather

/-! ## Answers -/

namespace Share

variable {κ α : Type} {t : Task κ α} {s : Share κ α} {answer : Answer α}

/-- With no panics, the answer is determined by the units under best effort, and if none of them
fails under any policy. -/
theorem Answered.judged_of (h : s.Answered t answer) (v : s.Valid t) (hnum : t.Numbered)
    (calm : ∀ u ∈ t.units, ¬ u.Panics)
    (hpolicy : t.policy = .bestEffort ∨ ∀ u ∈ t.units, ¬ u.Fails) : Judged t.units answer := by
  rcases hpolicy with hpatient | hnone
  · exact h.judged v hnum hpatient calm
  · have hsucceed : ∀ u ∈ t.units, u.Succeeds :=
      fun u hu => Work.succeeds_of_not (hnone u hu) (calm u hu)
    rcases h.ok_of_succeeds v hnum hsucceed with ⟨-, slots, rfl⟩
    rcases h.slots v hnum with ⟨hlength, -, hvalues⟩
    exact .values hsucceed hlength hvalues

end Share

/-! ## The task -/

namespace Task

variable {t : Task Effect Output} {b : Backend} {a : Assignment}
  {groups : List (Group Connection BoundUnit)}

theorem units_of_groups (h : t.batches = groups.map (Session.batchOf b a)) :
    t.units = (groups.flatMap Group.units).map (a.work b) := by
  rw [Task.units, h, List.flatMap_map, List.map_flatMap]
  rfl

/-- A route is grouped without loss. -/
theorem numbered_of_groups {options : StatementOptions} {cap : Nat} {route : List RouteUnit}
    {w w' : World} (h : t.batches = groups.map (Session.batchOf b a))
    (hg : (Grouping.group (World.binder b options) cap route).run w = (.ok groups, w')) :
    t.Numbered ∧ t.total = route.length := by
  have hpositions : t.units.map Work.position =
      (groups.flatMap Group.units).map Placed.position := by
    rw [units_of_groups h, List.map_map]
    rfl
  have hperm := Grouping.group_positions_perm hg
  rw [← hpositions] at hperm
  have htotal : t.total = route.length := by
    simpa [Task.total] using hperm.length_eq
  refine ⟨?_, htotal⟩
  rw [Task.Numbered, htotal]
  exact hperm

end Task

namespace Session

variable {β : Type} {s s' : Session β} {x : Nat} {e : Executor} {kind : EntryPoint}
  {groups : List (Group Connection BoundUnit)} {w : World} {sweeping : Bool}
  {threads : Nat} {backend : Backend} {executors : List Executor} {recorders : Nat}

/-- What the engine is asked to do for a call with these groups. -/
def task (s : Session β) (x : Nat) (e : Executor) (kind : EntryPoint)
    (groups : List (Group Connection BoundUnit)) : Task Effect Output :=
  { call := s.engine.calls.length
    policy := s.policy
    queryId := s.snapshots + 1
    batches := groups.map (batchOf s.backend (s.assignment x e kind)) }

theorem task_units (s : Session β) (x : Nat) (e : Executor) (kind : EntryPoint)
    (groups : List (Group Connection BoundUnit)) :
    (s.task x e kind groups).units =
      (groups.flatMap Group.units).map ((s.assignment x e kind).work s.backend) :=
  Task.units_of_groups rfl

/-- The route of an executor is grouped without loss. -/
theorem task_numbered (x : Nat) (kind : EntryPoint)
    (h : s.Grouped e groups w) :
    (s.task x e kind groups).Numbered ∧ (s.task x e kind groups).total = e.route.length :=
  Task.numbered_of_groups rfl h

theorem pending_of_open (x : Nat) (kind : EntryPoint) (hsound : s.Sound)
    (h : s.Grouped e groups w) :
    (s.open x e kind).2.Pending s.engine.calls.length
      { executor := x, kind, queryId := s.snapshots + 1 } := by
  rw [open_ok x kind h]
  refine ⟨?_, (s.task x e kind groups).start, ?_, ?_⟩
  · simp [← hsound.issued]
  · simp [Engine.start, Task.start, task]
  · -- even a call without units waits for its client
    exact Call.phase_new_ne_over _ _ _

/-- The engine of the session has begun the task, on its way from where it was new. -/
theorem exists_answered {past : History Effect Output} {answer : Answer Output}
    (hrun : Run step? (Session.start threads backend executors recorders) s)
    (h : s.Grouped e groups w)
    (hpast : ∀ before, Run (Engine.act? History.note)
      ((s.open x e kind).2.engine.withWorld before) (s'.engine.withWorld (before ++ past)))
    (hanswer : s'.engine.answer? s.engine.calls.length = some answer) :
    ∃ sh : Share Effect Output, sh.history = History.ofCall s.engine.calls.length past ∧
      sh.Valid (s.task x e kind groups) ∧ sh.Answered (s.task x e kind groups) answer := by
  rcases (sound_start threads backend executors recorders).recorded hrun with ⟨before, hbefore⟩
  have hnew : Run (Engine.act? History.note) (Engine.new threads [])
      (s.engine.withWorld before) := hbefore []
  have hserves : (s'.engine.withWorld (before ++ past)).Serves threads
      (s.task x e kind groups) := by
    have hsince := hpast before
    rw [open_ok x kind h] at hsince
    exact ⟨_, hnew, rfl, hsince⟩
  rcases hserves.answered hanswer with ⟨sh, hhistory, v, hanswered⟩
  -- before the call began nothing could belong to it
  have hearlier : History.ofCall s.engine.calls.length before = [] :=
    History.ofCall_of_ne _ fun o ho => Nat.ne_of_lt ((Engine.sites_of_run hnew).2 o ho)
  refine ⟨sh, ?_, v, hanswered⟩
  rw [hhistory]
  simp [Engine.historyOf, task, hearlier]

/-! ## Responses -/

/-- The call that is opened here returns, whatever the others do, and its client then takes a
response with the property. -/
def Yields (s : Session β) (x : Nat) (e : Executor) (kind : EntryPoint) (sweeping : Bool)
    (P : Response → Session β → Prop) : Prop :=
  ∃ number s₁, s.open x e kind = (.ok number, s₁) ∧
    ∀ s', Run (others? number sweeping) s₁ s' →
      Inevitable (Engine.step? noteWorld) (fun e => e.isReturned number = true) s'.engine ∧
      (s'.engine.isReturned number = true →
        ∃ r s₂, s'.conclude number = some (r, s₂) ∧ P r s₂)

theorem yields_of_answered {P : Response → Session β → Prop}
    (hrun : Run step? (Session.start threads backend executors recorders) s)
    (h : s.Grouped e groups w)
    (hP : ∀ (s' s₂ : Session β) (sh : Share Effect Output) (answer : Answer Output),
      Run (others? s.engine.calls.length sweeping) (s.open x e kind).2 s' →
      s'.engine.answer? s.engine.calls.length = some answer →
      s₂.world.cursors = s'.world.cursors → sh.Valid (s.task x e kind groups) →
      sh.Answered (s.task x e kind groups) answer →
      P (.ofAnswer kind (s.snapshots + 1) answer) s₂) : s.Yields x e kind sweeping P := by
  have hsound := sound_of_run hrun
  refine ⟨s.engine.calls.length, (s.open x e kind).2, by rw [open_ok x kind h], ?_⟩
  intro s' hothers
  have hopened : (s.open x e kind).2.Sound := hsound.turn turn_of_open
  have hsound' : s'.Sound := hopened.run (run_of_others hothers)
  refine ⟨Engine.return_inevitable hsound'.service.serving _, ?_⟩
  intro hreturned
  -- the client takes the answer that the engine has for the task
  have hpending := pending_of_open x kind hsound h
  rcases (hpending.run hothers).conclude hreturned with ⟨answer, s₂, hanswer, hconclude, hcursors⟩
  rcases hopened.recorded (run_of_others hothers) with ⟨past, hpast⟩
  rcases exists_answered hrun h hpast hanswer with ⟨sh, -, v, hanswered⟩
  exact ⟨_, s₂, hconclude, hP s' s₂ sh answer hothers hanswer hcursors v hanswered⟩

theorem yields_judged (x : Nat) (kind : EntryPoint) (sweeping : Bool)
    (hrun : Run step? (Session.start threads backend executors recorders) s)
    (h : s.Grouped e groups w) (calm : ∀ u ∈ (s.task x e kind groups).units, ¬ u.Panics)
    (hpolicy : s.policy = .bestEffort ∨ ∀ u ∈ (s.task x e kind groups).units, ¬ u.Fails) :
    s.Yields x e kind sweeping fun r _ => ∃ answer, r = .ofAnswer kind (s.snapshots + 1) answer ∧
      Share.Judged (s.task x e kind groups).units answer := by
  apply yields_of_answered hrun h
  intro s' s₂ sh answer _ _ _ v hanswered
  exact ⟨answer, rfl, hanswered.judged_of v (task_numbered x kind h).1 calm hpolicy⟩

end Session

end ScatterGather
