import ScatterGather.Proofs.Engine.Order
import ScatterGather.Proofs.Grouping.Connecting
import ScatterGather.Proofs.Session.Query

/-!
# Journal — a session that remembers every call it opened and all that its units did

What a session has done to its world is spread over its engine and its registries, and of a call
that is over little is left.  A journal grows along with a session: each call with the groups that
its route was given, and every occurrence in the order in which it happened.  It says nothing about
which steps are possible, so what holds of all sessions with a journal holds of all sessions.

* `Opened` : a call with its groups, and the task that it is for the engine;
* `Session.journaled?` : the steps of a session with its journal;
* `Session.run_of_journaled`, `Session.exists_journal` : they are those of the session;
* `Journal.Tells` : what the journal says of the session at any time;
* `Session.tells_of_run` : it holds in every session that began with no calls.
-/

namespace ScatterGather

/-! ## Calls that were opened -/

/-- A call of an executor, with the settings of its units and the groups of its route. -/
structure Opened where
  executor : Executor
  assignment : Assignment
  policy : Policy
  groups : List (Group Connection BoundUnit)

namespace Opened

def units (o : Opened) : List (Placed BoundUnit) :=
  o.groups.flatMap Group.units

def connections (o : Opened) : List Connection :=
  o.groups.map Group.connection

/-- The call as its client knows it. -/
def issue (o : Opened) : Issued :=
  { executor := o.assignment.registry
    kind := o.assignment.kind
    queryId := o.assignment.queryId }

/-- What the engine is asked to do for the call, as its call number `k`. -/
def task (o : Opened) (b : Backend) (k : Nat) : Task Effect Output :=
  { call := k
    policy := o.policy
    queryId := o.assignment.queryId
    batches := o.groups.map (Session.batchOf b o.assignment) }

theorem task_units (o : Opened) (b : Backend) (k : Nat) :
    (o.task b k).units = o.units.map (o.assignment.work b) :=
  Task.units_of_groups rfl

theorem getElem?_batches {o : Opened} {b : Backend} {k i : Nat} {batch : Batch Effect Output} :
    (o.task b k).batches[i]? = some batch ↔
      ∃ g, o.groups[i]? = some g ∧ batch = Session.batchOf b o.assignment g := by
  rw [task, List.getElem?_map, Option.map_eq_some_iff]
  exact exists_congr fun g => and_congr_right fun _ => eq_comm

/-- Every group is a lane of the task. -/
theorem mem_lanes {o : Opened} {i : Nat} {g : Group Connection BoundUnit} (b : Backend) (k : Nat)
    (hg : o.groups[i]? = some g) :
    (o.task b k).lane i (Session.batchOf b o.assignment g) ∈ (o.task b k).lanes :=
  Task.mem_lanes.mpr ⟨i, _, getElem?_batches.mpr ⟨g, hg, rfl⟩, rfl⟩

end Opened

/-- The calls that were opened, by their number, and everything that has happened since. -/
structure Journal where
  calls : List Opened
  past : History Effect Output

namespace Journal

def empty : Journal :=
  ⟨[], []⟩

def units (j : Journal) : List (Placed BoundUnit) :=
  j.calls.flatMap Opened.units

def connections (j : Journal) : List Connection :=
  j.calls.flatMap Opened.connections

/-- Where the groups of all calls are, by call and batch, and their connections. -/
def places (j : Journal) : List ((Nat × Nat) × Connection) :=
  j.calls.zipIdx.flatMap fun (o, k) => o.groups.zipIdx.map fun (g, i) => ((k, i), g.connection)

theorem mem_places {j : Journal} {k i : Nat} {o : Opened} {g : Group Connection BoundUnit}
    (ho : j.calls[k]? = some o) (hg : o.groups[i]? = some g) :
    ((k, i), g.connection) ∈ j.places :=
  List.mem_flatMap.mpr ⟨(o, k), List.mem_zipIdx_iff_getElem?.mpr ho,
    List.mem_map.mpr ⟨(g, i), List.mem_zipIdx_iff_getElem?.mpr hg, rfl⟩⟩

theorem places_connections (j : Journal) : j.places.map Prod.snd = j.connections := by
  have hcall (o : Opened) (k : Nat) : (o.groups.zipIdx.map fun (g, i) =>
      ((k, i), g.connection)).map Prod.snd = o.connections := by
    rw [List.map_map, Opened.connections]
    conv_rhs => rw [← List.zipIdx_map_fst 0 o.groups, List.map_map]
    rfl
  rw [places, List.map_flatMap, connections]
  conv_rhs => rw [← List.zipIdx_map_fst 0 j.calls, List.flatMap_map]
  exact List.flatMap_congr fun p _ => hcall p.1 p.2

end Journal

namespace Session

variable {β : Type} {s s' : Session β} {j j' : Journal}

/-! ## Steps with a journal -/

/-- The call that would be opened, unless its route is refused. -/
def opened? (s : Session β) (x : Nat) (e : Executor) (kind : EntryPoint) : Option Opened :=
  match (Grouping.group (World.binder s.backend e.options) e.cap e.route).run s.world with
  | (.ok groups, _) =>
      some { executor := e, assignment := s.assignment x e kind, policy := s.policy, groups }
  | (.error _, _) => none

/-- What a move of the engine shows. -/
def shown (s : Session β) (m : Move) : History Effect Output :=
  (((s.engine.withWorld []).step? History.note m).map Engine.world).getD []

end Session

/-- The journal behind a step of the session. -/
def Journal.after {β : Type} (j : Journal) (s : Session β) : Session.Step β → Journal
  | .begin x kind =>
      { j with calls := j.calls ++ (s.executors[x]?.bind fun e => s.opened? x e kind).toList }
  | .engine m => { j with past := j.past ++ s.shown m }
  | _ => j

namespace Session

variable {β : Type} {s s' : Session β} {j j' : Journal} {m : Step β} {x : Nat} {e : Executor}
  {kind : EntryPoint}

def journaled? (r : Session β × Journal) (m : Step β) : Option (Session β × Journal) :=
  (r.1.step? m).map fun s' => (s', r.2.after r.1 m)

theorem journaled?_eq_some : journaled? (s, j) m = some (s', j') ↔
    s.step? m = some s' ∧ j' = j.after s m := by
  simp only [journaled?, Option.map_eq_some_iff, Prod.mk.injEq]
  constructor
  · rintro ⟨s₁, hstep, rfl, rfl⟩
    exact ⟨hstep, rfl⟩
  · rintro ⟨hstep, rfl⟩
    exact ⟨s', hstep, rfl, rfl⟩

theorem run_of_journaled (h : Run journaled? (s, j) (s', j')) : Run step? s s' := by
  refine Relation.ReflTransGen.lift (p := Moves step?) Prod.fst ?_ _ _ h
  rintro ⟨s, j⟩ ⟨s', j'⟩ ⟨m, hm⟩
  exact ⟨m, (journaled?_eq_some.mp hm).1⟩

/-- Every run of a session has its journal. -/
theorem exists_journal (j : Journal) (h : Run step? s s') :
    ∃ j', Run journaled? (s, j) (s', j') := by
  induction h with
  | refl => exact ⟨j, .refl⟩
  | tail _ hstep ih =>
      rcases ih with ⟨j', hrun⟩
      rcases hstep with ⟨m, hm⟩
      exact ⟨_, hrun.snoc (journaled?_eq_some.mpr ⟨hm, rfl⟩)⟩

theorem shown_of_step {m : Move} {e' : Engine Effect Output World}
    (h : s.engine.step? noteWorld m = some e') :
    e'.world = History.replay noteWorld (s.shown m) s.world ∧
      ∀ past, (s.engine.withWorld past).step? History.note m =
        some (e'.withWorld (past ++ s.shown m)) := by
  rcases Engine.step?_withWorld h with ⟨os, hworld, hstep⟩
  have hshown : s.shown m = os := by
    rw [shown, hstep []]
    rfl
  rw [hshown]
  exact ⟨hworld, hstep⟩

/-- The engine whose world is its history makes the steps that the journal tells of. -/
theorem recorded_of_step (h : s.step? m = some s') (hj : j' = j.after s m) :
    Run (Engine.act? History.note) (s.engine.withWorld j.past)
      (s'.engine.withWorld j'.past) := by
  subst hj
  -- a step that leaves the engine and the journal alone
  have hstay {w : World} (engine : s'.engine = s.engine.withWorld w) :
      Run (Engine.act? History.note) (s.engine.withWorld j.past)
        (s'.engine.withWorld j.past) := by
    rw [engine]
    exact .refl
  cases m with
  | engine m =>
      rcases Option.map_eq_some_iff.mp h with ⟨e', hstep, rfl⟩
      exact .single (m := .move m) ((shown_of_step hstep).2 j.past)
  | begin x kind =>
      cases step?_turn h with
      | @accept _ _ w policy queryId batches _ grown below fresh engine issued =>
          refine .single (m := .begin policy queryId batches) ?_
          rw [engine]
          rfl
      | tend tended engine issued => exact hstay engine
  | conclude n =>
      cases step?_turn h with
      | collect collect grown engine issued =>
          rcases Engine.collect_eq_some collect with ⟨c, hc, hp, rfl⟩
          have hcall : (s.engine.withWorld j.past).calls[n]? = some c := hc
          refine .single (m := .collect n) ?_
          rw [Engine.act?, Engine.collect_of_returned hcall hp, engine]
          rfl
      | tend tended engine issued => exact hstay engine
  | insert | remove | clear | setRethrow | beginSweep | sweep =>
      cases step?_turn h with
      | tend tended engine issued => exact hstay engine

theorem recorded_of_run (h : Run journaled? (s, j) (s', j')) :
    Run (Engine.act? History.note) (s.engine.withWorld j.past)
      (s'.engine.withWorld j'.past) := by
  have hprefix : ∀ r : Session β × Journal, Run journaled? (s, j) r →
      Run (Engine.act? History.note) (s.engine.withWorld j.past)
        (r.1.engine.withWorld r.2.past) := by
    intro r hr
    induction hr with
    | refl => exact .refl
    | tail _ hstep ih =>
        rcases hstep with ⟨m, hm⟩
        rcases journaled?_eq_some.mp hm with ⟨hstep, hj⟩
        exact ih.trans (recorded_of_step hstep hj)
  exact hprefix (s', j') h

/-! ## Frames -/

/-- Counting the groups of a call is all that is done to the world besides opening them. -/
theorem countGroups_eq (groups : List (Group Connection BoundUnit)) (w : World) :
    countGroups groups w = { w with metrics := (countGroups groups w).metrics } := by
  simp only [countGroups, List.foldl_cons, List.foldl_nil]
  split <;> split <;> rfl

/-- The opening of a call hands out connections and statements, and it is counted. -/
theorem begin_eq_some (h : s.step? (.begin x kind) = some s') :
    ∃ calls issued w,
      w = { s.world with
        connections := w.connections, prepared := w.prepared, log := w.log, metrics := w.metrics } ∧
      s' = { s with
        snapshots := s.snapshots + 1, issued, engine := ⟨s.engine.pool, calls, w⟩ } := by
  rcases Option.bind_eq_some_iff.mp h with ⟨e, -, hopen⟩
  cases hopen
  rcases Grouping.group_connected s.backend e.options e.cap e.route s.world with
    ⟨new, hconnected, -⟩
  rcases hg : (Grouping.group (World.binder s.backend e.options) e.cap e.route).run s.world with
    ⟨result, w⟩
  rw [hg] at hconnected
  have hcounted (metrics : Metrics) :=
    congrArg (fun w : World => { w with metrics }) hconnected.frame
  cases result with
  | error refusal =>
      rw [open_error x kind hg]
      exact ⟨_, _, countExecution kind false w, hcounted _, rfl⟩
  | ok groups =>
      rw [open_ok x kind hg]
      refine ⟨_, _, countGroups groups w, ?_, rfl⟩
      rw [countGroups_eq]
      exact hcounted _

theorem conclude_eq_some {n : Nat} {r : Response} (h : s.conclude n = some (r, s')) :
    ∃ i c answer success, s.issued[n]? = some i ∧ s.engine.calls[n]? = some c ∧
      c.phase = .returned answer ∧ r = .ofAnswer i.kind i.queryId answer ∧
      s' = { s with engine := (s.engine.setCall n { c with phase := .over }).withWorld
                      (countExecution i.kind success s.world) } := by
  simp only [conclude, Option.bind_eq_bind, Option.bind_eq_some_iff, Option.some.injEq,
    Prod.exists, Prod.mk.injEq] at h
  rcases h with ⟨i, hi, answer, e, hcollect, rfl, rfl⟩
  rcases Engine.collect_eq_some hcollect with ⟨c, hc, hp, rfl⟩
  exact ⟨i, c, answer, _, hi, hc, hp, rfl, rfl⟩

theorem conclude_of_returned {n : Nat} {i : Issued} {c : Call Effect Output}
    {answer : Answer Output} (hi : s.issued[n]? = some i) (hc : s.engine.calls[n]? = some c)
    (hp : c.phase = .returned answer) :
    ∃ success, s.conclude n = some (.ofAnswer i.kind i.queryId answer,
      { s with engine := (s.engine.setCall n { c with phase := .over }).withWorld
                 (countExecution i.kind success s.world) }) := by
  have hcollect := Engine.collect_of_returned hc hp
  simp only [conclude, hi, hcollect, Option.bind_eq_bind, Option.bind_some]
  exact ⟨_, rfl⟩

/-- A sweep takes something out of its registry, or attempts a handle. -/
theorem sweepStep?_eq_some {i : Nat} (h : s.sweepStep? i = some s') :
    ∃ x sweep sweep' r w, s.sweeps[i]? = some (x, sweep) ∧
      w = { s.world with
        registries := s.world.registries.set x r
        closed := w.closed, cursors := w.cursors, log := w.log } ∧
      s' = { s with sweeps := s.sweeps.set i (x, sweep'), engine := s.engine.withWorld w } := by
  simp only [sweepStep?, Option.bind_eq_bind, Option.bind_eq_some_iff, Option.some.injEq,
    Prod.exists] at h
  rcases h with ⟨x, sweep, hsweep, sweep', r, attempted, -, rfl⟩
  cases attempted with
  | none =>
      exact ⟨x, sweep, sweep', r, { s.world with registries := s.world.registries.set x r },
        hsweep, rfl, rfl⟩
  | some handle => exact ⟨x, sweep, sweep', r, _, hsweep, World.close_frame _ handle, rfl⟩

/-- The data sources and the executors of a session never change. -/
theorem step?_fixed (h : s.step? m = some s') :
    s'.backend = s.backend ∧ s'.executors = s.executors := by
  cases m with
  | begin x kind =>
      rcases begin_eq_some h with ⟨calls, issued, w, -, rfl⟩
      exact ⟨rfl, rfl⟩
  | engine m =>
      rcases Option.map_eq_some_iff.mp h with ⟨e', -, rfl⟩
      exact ⟨rfl, rfl⟩
  | conclude n =>
      rcases Option.map_eq_some_iff.mp h with ⟨⟨r, s₁⟩, hconclude, rfl⟩
      rcases conclude_eq_some hconclude with ⟨i, c, answer, success, -, -, -, -, rfl⟩
      exact ⟨rfl, rfl⟩
  | sweep i =>
      rcases sweepStep?_eq_some h with ⟨x, sweep, sweep', r, w, -, -, rfl⟩
      exact ⟨rfl, rfl⟩
  | insert | remove | clear | setRethrow | beginSweep =>
      cases h
      exact ⟨rfl, rfl⟩

theorem backend_of_run (h : Run step? s s') : s'.backend = s.backend :=
  Run.preserves (P := fun t => t.backend = s.backend)
    (fun hsame hstep => (step?_fixed hstep).1.trans hsame) h rfl

theorem executors_of_run (h : Run step? s s') : s'.executors = s.executors :=
  Run.preserves (P := fun t => t.executors = s.executors)
    (fun hsame hstep => (step?_fixed hstep).2.trans hsame) h rfl

/-- Only the opening of a call hands out connections and statements. -/
theorem step?_kept (h : s.step? m = some s') (hm : ∀ x kind, m ≠ .begin x kind) :
    s'.issued = s.issued ∧ s'.world.connections = s.world.connections ∧
      s'.world.prepared = s.world.prepared := by
  cases m with
  | begin x kind => exact absurd rfl (hm x kind)
  | engine m =>
      rcases Option.map_eq_some_iff.mp h with ⟨e', hstep, rfl⟩
      have hworld := (shown_of_step hstep).1
      rw [replay_eq_foldl] at hworld
      refine ⟨rfl, ?_, ?_⟩
      · exact (congrArg World.connections hworld).trans (World.performAll_connections ..)
      · exact (congrArg World.prepared hworld).trans (World.performAll_prepared ..)
  | conclude n =>
      rcases Option.map_eq_some_iff.mp h with ⟨⟨r, s₁⟩, hconclude, rfl⟩
      rcases conclude_eq_some hconclude with ⟨i, c, answer, success, -, -, -, -, rfl⟩
      exact ⟨rfl, rfl, rfl⟩
  | sweep i =>
      rcases sweepStep?_eq_some h with ⟨x, sweep, sweep', r, w, -, hw, rfl⟩
      exact ⟨rfl, (congrArg World.connections hw :), (congrArg World.prepared hw :)⟩
  | insert | remove | clear | setRethrow | beginSweep =>
      cases h
      exact ⟨rfl, rfl, rfl⟩

end Session

/-! ## What a journal tells -/

/-- The last page, or one of those before it. -/
theorem Journal.page_cases {calls : List Opened} {o o' : Opened} {k : Nat}
    (h : (calls ++ [o])[k]? = some o') : calls[k]? = some o' ∨ k = calls.length ∧ o' = o := by
  by_cases hk : k < calls.length
  · exact .inl (by rwa [List.getElem?_append_left hk] at h)
  · have hlast : k = calls.length := by
      have hle := (List.getElem?_eq_some_iff.mp h).1
      simp only [List.length_append, List.length_singleton] at hle
      omega
    subst hlast
    rw [List.getElem?_concat_length, Option.some.injEq] at h
    exact .inr ⟨rfl, h.symm⟩

/-- What a journal says of the session that it grew along with. -/
structure Journal.Tells {β : Type} (threads : Nat) (s : Session β) (j : Journal) : Prop where
  sound : s.Sound
  recorded : Run (Engine.act? History.note) (Engine.new threads []) (s.engine.withWorld j.past)
  issued : s.issued = j.calls.map Opened.issue
  serves : ∀ (k : Nat) (o : Opened), j.calls[k]? = some o →
    (s.engine.withWorld j.past).Serves threads (o.task s.backend k)
  executor : ∀ o ∈ j.calls, s.executors[o.assignment.registry]? = some o.executor
  grouped : ∀ o ∈ j.calls, ∃ w w', (Grouping.group (World.binder s.backend o.executor.options)
    o.executor.cap o.executor.route).run w = (.ok o.groups, w')
  /-- No statement serves two units. -/
  statements : (j.units.map fun u => u.unit.statement.id).Sublist (List.range s.world.prepared)
  /-- No connection serves two groups. -/
  connections : j.connections.Sublist s.world.connections
  numbered : s.world.Numbered

namespace Session

variable {β : Type} {s s' : Session β} {j j' : Journal} {threads : Nat} {m : Step β} {x : Nat}
  {e : Executor} {kind : EntryPoint} {groups : List (Group Connection BoundUnit)} {w : World}

theorem opened?_of_grouped (h : s.Grouped e groups w) : s.opened? x e kind =
    some { executor := e, assignment := s.assignment x e kind, policy := s.policy, groups } := by
  have hgroup : (Grouping.group (World.binder s.backend e.options) e.cap e.route).run s.world =
      (.ok groups, w) := h
  simp only [opened?, hgroup]

theorem opened?_of_refused {refusal : Error}
    (h : (Grouping.group (World.binder s.backend e.options) e.cap e.route).run s.world =
      (.error refusal, w)) : s.opened? x e kind = none := by
  simp only [opened?, h]

theorem tells_start (threads : Nat) (backend : Backend) (executors : List Executor)
    (recorders : Nat) : Journal.Tells threads
      (Session.start threads backend executors recorders : Session β) .empty where
  sound := sound_start threads backend executors recorders
  recorded := .refl
  issued := rfl
  serves := by simp [Journal.empty]
  executor := by simp [Journal.empty]
  grouped := by simp [Journal.empty]
  statements := by simp [Journal.empty, Journal.units]
  connections := by simp [Journal.empty, Journal.connections]
  numbered := rfl

end Session

namespace Journal.Tells

variable {β : Type} {s s' : Session β} {j j' : Journal} {threads : Nat} {m : Session.Step β}

theorem length_eq (h : j.Tells threads s) : j.calls.length = s.engine.calls.length := by
  rw [← h.sound.issued, h.issued, List.length_map]

/-- A call that is refused leaves no page in the journal. -/
theorem refused (h : j.Tells threads s) (x : Nat) {e : Executor} (kind : EntryPoint)
    {refusal : Error} {w : World}
    (hg : (Grouping.group (World.binder s.backend e.options) e.cap e.route).run s.world =
      (.error refusal, w))
    (hsound : (s.open x e kind).2.Sound) : j.Tells threads (s.open x e kind).2 := by
  rcases Grouping.group_connected s.backend e.options e.cap e.route s.world with
    ⟨new, hconnected, -⟩
  have hgrown := Grouping.group_grown s.backend e.options e.cap e.route s.world
  rw [hg] at hconnected hgrown
  rw [Session.open_error x kind hg] at hsound ⊢
  exact
    { sound := hsound
      recorded := h.recorded
      issued := h.issued
      serves := h.serves
      executor := h.executor
      grouped := h.grouped
      statements := h.statements.trans (List.range_sublist.mpr hgrown.prepared)
      connections := h.connections.trans (hconnected.connections ▸ List.sublist_append_left ..)
      numbered := hconnected.numbered_world h.numbered }

/-- A call that is granted is on the last page, with connections and statements of its own. -/
theorem granted (h : j.Tells threads s) {x : Nat} {e : Executor} (kind : EntryPoint)
    {groups : List (Group Connection BoundUnit)} {w : World} (he : s.executors[x]? = some e)
    (hg : s.Grouped e groups w) (hsound : (s.open x e kind).2.Sound) :
    Tells threads (s.open x e kind).2 { j with calls := j.calls ++
      [{ executor := e, assignment := s.assignment x e kind, policy := s.policy, groups }] } := by
  rcases Grouping.group_connected s.backend e.options e.cap e.route s.world with
    ⟨new, hconnected, hnew⟩
  rcases Grouping.group_built hg with ⟨-, hids, hprepared⟩
  rw [hg] at hconnected hnew
  have hcounted := Session.countGroups_eq groups w
  -- the call is begun where the engine is, and all others go on from there
  have hbegun : Run (Engine.act? History.note) (s.engine.withWorld j.past)
      ((s.open x e kind).2.engine.withWorld j.past) := by
    rw [Session.open_ok x kind hg]
    exact .single (m := .begin _ _ _) rfl
  have hrange : List.range w.prepared = List.range s.world.prepared ++
      List.range' s.world.prepared (groups.flatMap Group.units).length := by
    rw [hprepared, List.range_eq_range', List.range_eq_range']
    simpa using (List.range'_append_1 (s := 0)).symm
  rw [Session.open_ok x kind hg] at hsound hbegun ⊢
  refine ⟨hsound, h.recorded.trans hbegun, ?_, ?_, ?_, ?_, ?_, ?_, ?_⟩
  · rw [List.map_append, h.issued]
    rfl
  · intro k o ho
    rcases Journal.page_cases ho with ho | ⟨hk, rfl⟩
    · exact (h.serves k o ho).later hbegun
    · exact ⟨_, h.recorded, hk.trans h.length_eq, .refl⟩
  · intro o ho
    rcases List.mem_append.mp ho with ho | ho
    · exact h.executor o ho
    · cases List.mem_singleton.mp ho
      exact he
  · intro o ho
    rcases List.mem_append.mp ho with ho | ho
    · exact h.grouped o ho
    · cases List.mem_singleton.mp ho
      exact ⟨s.world, w, hg⟩
  · have hworld : (Session.countGroups groups w).prepared = w.prepared := by rw [hcounted]
    show ((Journal.units { j with calls := j.calls ++ [_] }).map _).Sublist
      (List.range (Session.countGroups groups w).prepared)
    rw [hworld, hrange, units, List.flatMap_append, List.map_append, List.flatMap_singleton,
      ← hids]
    exact h.statements.append (.refl _)
  · show (Journal.connections { j with calls := j.calls ++ [_] }).Sublist
      (Session.countGroups groups w).connections
    rw [hcounted, hconnected.connections, Journal.connections, List.flatMap_append,
      List.flatMap_singleton, hnew groups rfl]
    exact h.connections.append (.refl _)
  · show (Session.countGroups groups w).Numbered
    rw [hcounted]
    exact hconnected.numbered_world h.numbered

theorem opening {x : Nat} {kind : EntryPoint} (h : j.Tells threads s)
    (hstep : s.step? (.begin x kind) = some s') : (j.after s (.begin x kind)).Tells threads s' := by
  have hsound := h.sound.turn (Session.step?_turn hstep)
  rcases Option.bind_eq_some_iff.mp hstep with ⟨e, he, hopen⟩
  cases hopen
  rcases hg : (Grouping.group (World.binder s.backend e.options) e.cap e.route).run s.world with
    ⟨result, w⟩
  cases result with
  | error refusal =>
      have hsame : j.after s (.begin x kind) = j := by
        simp [after, he, Session.opened?_of_refused hg]
      rw [hsame]
      exact h.refused x kind hg hsound
  | ok groups =>
      have hpage : j.after s (.begin x kind) = { j with
          calls := j.calls ++ [{ executor := e, assignment := s.assignment x e kind,
                                 policy := s.policy, groups }] } := by
        simp [after, he, Session.opened?_of_grouped hg]
      rw [hpage]
      exact h.granted kind he hg hsound

theorem step (h : j.Tells threads s) (hstep : s.step? m = some s') :
    (j.after s m).Tells threads s' := by
  by_cases hm : ∃ x kind, m = .begin x kind
  · rcases hm with ⟨x, kind, rfl⟩
    exact h.opening hstep
  · have hm : ∀ x kind, m ≠ .begin x kind := fun x kind heq => hm ⟨x, kind, heq⟩
    have hcalls : (j.after s m).calls = j.calls := by
      cases m with
      | begin x kind => exact absurd rfl (hm x kind)
      | engine | conclude | insert | remove | clear | setRethrow | beginSweep | sweep => rfl
    have hlater := Session.recorded_of_step hstep rfl (j := j)
    rcases Session.step?_fixed hstep with ⟨hbackend, hexecutors⟩
    rcases Session.step?_kept hstep hm with ⟨hissued, hconnections, hprepared⟩
    refine ⟨h.sound.turn (Session.step?_turn hstep), h.recorded.trans hlater, ?_, ?_, ?_, ?_, ?_,
      ?_, ?_⟩
    · rw [hissued, hcalls, h.issued]
    · rw [hcalls, hbackend]
      exact fun k o ho => (h.serves k o ho).later hlater
    · rw [hcalls, hexecutors]
      exact h.executor
    · rw [hcalls, hbackend]
      exact h.grouped
    · rw [units, hcalls, hprepared]
      exact h.statements
    · rw [Journal.connections, hcalls, hconnections]
      exact h.connections
    · rw [World.Numbered, hconnections]
      exact h.numbered

theorem run (h : j.Tells threads s) (hrun : Run Session.journaled? (s, j) (s', j')) :
    j'.Tells threads s' := by
  refine Run.preserves (P := fun r : Session β × Journal => r.2.Tells threads r.1) ?_ hrun h
  rintro ⟨s, j⟩ ⟨s', j'⟩ m hs hstep
  rcases Session.journaled?_eq_some.mp hstep with ⟨hm, rfl⟩
  exact step hs hm

/-! ## Calls of the journal -/

/-- No two groups are on one connection. -/
theorem place_eq (h : j.Tells threads s) {p p' : (Nat × Nat) × Connection} (hp : p ∈ j.places)
    (hp' : p' ∈ j.places) (hsame : p.2.id = p'.2.id) : p = p' := by
  have hids : (j.places.map fun p => p.2.id).Nodup := by
    have hnodup := (h.connections.map Connection.id).nodup h.numbered.nodup
    rwa [← j.places_connections, List.map_map] at hnodup
  exact List.inj_on_of_nodup_map hids hp hp' hsame

section

variable {k : Nat} {o : Opened} {g : Group Connection BoundUnit} {u : Placed BoundUnit}

theorem exists_page (h : j.Tells threads s) (hlt : k < s.engine.calls.length) :
    ∃ o, j.calls[k]? = some o :=
  ⟨_, List.getElem?_eq_getElem (h.length_eq ▸ hlt)⟩

theorem issue_eq (h : j.Tells threads s) (ho : j.calls[k]? = some o) :
    s.issued[k]? = some o.issue := by
  rw [h.issued, List.getElem?_map, ho]
  rfl

/-- The jobs and the history of a call go along its groups. -/
theorem orderly (h : j.Tells threads s) (ho : j.calls[k]? = some o) :
    ∃ sh : Share Effect Output, sh.Orderly (o.task s.backend k) ∧ sh.jobs = s.engine.jobsOf k ∧
      sh.history = History.ofCall k j.past := by
  rcases (h.serves k o ho).orderly with ⟨sh, hsh, horderly⟩
  rcases Engine.share?_eq_some.mp hsh with ⟨-, hjobs, hhistory⟩
  exact ⟨sh, horderly, hjobs, hhistory⟩

/-- The answer of a call that has returned, and what has happened to its units. -/
theorem answered (h : j.Tells threads s) (ho : j.calls[k]? = some o) {answer : Answer Output}
    (ha : s.engine.answer? k = some answer) :
    ∃ sh : Share Effect Output, sh.history = History.ofCall k j.past ∧
      sh.Valid (o.task s.backend k) ∧ sh.Answered (o.task s.backend k) answer := by
  have ha' : (s.engine.withWorld j.past).answer? (o.task s.backend k).call = some answer := ha
  exact (h.serves k o ho).answered ha'

/-- Every job is one of a call on a page. -/
theorem job_orderly (h : j.Tells threads s) {job : Job Effect Output} (hjob : job ∈ s.engine.jobs) :
    ∃ (o : Opened) (sh : Share Effect Output), j.calls[job.call]? = some o ∧
      sh.Orderly (o.task s.backend job.call) ∧ job ∈ sh.jobs ∧
      sh.history = History.ofCall job.call j.past := by
  rcases h.exists_page (h.sound.service.known job (Multiset.mem_coe.mpr hjob)) with ⟨o, ho⟩
  rcases h.orderly ho with ⟨sh, horderly, hjobs, hhistory⟩
  refine ⟨o, sh, ho, horderly, ?_, hhistory⟩
  rw [hjobs]
  exact Multiset.mem_filter.mpr ⟨Multiset.mem_coe.mpr hjob, rfl⟩

theorem task_numbered (h : j.Tells threads s) (ho : j.calls[k]? = some o) :
    (o.task s.backend k).Numbered := by
  rcases h.grouped o (List.mem_of_getElem? ho) with ⟨w, w', hg⟩
  exact (Task.numbered_of_groups rfl hg).1

theorem positions_nodup (h : j.Tells threads s) (ho : j.calls[k]? = some o) :
    ∀ b ∈ (o.task s.backend k).batches, (b.units.map (·.position)).Nodup := by
  intro b hb
  have hall : ((o.task s.backend k).units.map (·.position)).Nodup :=
    (h.task_numbered ho).nodup_iff.mpr List.nodup_range
  rw [Task.units, List.map_flatMap] at hall
  exact (List.nodup_flatMap.mp hall).1 b hb

/-- The statement of a unit is prepared on the connection of its group. -/
theorem bound (h : j.Tells threads s) (ho : j.calls[k]? = some o) (hg : g ∈ o.groups)
    (hu : u ∈ g.units) : u.unit.connection = g.connection ∧ u.unit.mode = g.mode ∧
      u.unit.statement.connection = g.connection := by
  rcases h.grouped o (List.mem_of_getElem? ho) with ⟨w, w', hgroup⟩
  rcases Grouping.bound_of_mem hgroup hg hu with ⟨-, hconnection, hmode, hstatement⟩
  exact ⟨hconnection, hmode, by rw [hstatement]⟩

end

end Journal.Tells

theorem Session.tells_of_run {β : Type} {threads : Nat} {backend : Backend}
    {executors : List Executor} {recorders : Nat} {s : Session β} {j : Journal}
    (h : Run journaled? (Session.start threads backend executors recorders, .empty) (s, j)) :
    j.Tells threads s :=
  (tells_start threads backend executors recorders).run h

/-! ## An example -/

/-- One target, on a connection of its own. -/
def Executor.single : Executor :=
  { Executor.triple with route := [⟨"ds_0", ⟨"SELECT id", []⟩⟩] }

/-- The rows of the second target break off, and those of one statement cannot be read at all. -/
def Backend.torn : Backend :=
  { Backend.willing with
    query := fun s => .answer (.ofScript ["id"]
      (if s.route.target = "ds_1" then [.row [], .failure (.ofMessage "gone")] else [.row []]))
    drainPanic? := fun s => if s.id = 6 then some 0 else none }

/-- Executor `x` opens call `k` and sends it, the first worker is at work, and the caller takes the
reports. -/
def Session.calling (kind : EntryPoint) (x k sends works takes : Nat) :
    List (Session.Step Unit) :=
  .begin x kind :: List.replicate sends (.engine (.caller k)) ++
    List.replicate works (.engine (.worker 0)) ++ List.replicate takes (.engine (.caller k))

def Session.singleSteps : List (Session.Step Unit) :=
  calling .query 0 0 2 12 2

end ScatterGather
