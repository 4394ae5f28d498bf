import ScatterGather.Proofs.Session.Journal

/-!
# Tracking — which handles a registry holds

A query whose cursor has opened tracks its statement and its cursor before it reads a row, so a
failure to read comes too late to lose them.  Nothing else is tracked, and nobody forgets what was
tracked but a sweep.

* `Assignment.tracks` : the units that track what they open;
* `Assignment.Enters` : what one unit adds to a registry;
* `Journal.tracked` : the units of a session that have run and have opened a cursor;
* `Journal.Tells.entries_perm`, `Journal.Tells.entries_subperm` : what the units of all calls, and
  those of one call, have added;
* `Session.unswept_of_run` : a registry that nobody sweeps holds just that;
* `Session.registry_tracks_queries` : so it holds the handles of those units, and no other.
-/

namespace ScatterGather

/-! ## Units -/

/-- Whether the query of a statement opens a cursor. -/
def Backend.opens (b : Backend) (s : Statement) : Bool :=
  match b.query s with
  | .answer _ => true
  | _ => false

/-- Whether a unit, once it has run, is tracked in registry `x`. -/
def Assignment.tracks (a : Assignment) (b : Backend) (x : Nat) (u : Placed BoundUnit) : Bool :=
  decide (a.registry = x ∧ a.kind = .query) && b.opens u.unit.statement

/-- A unit among the statements of a registry. -/
def statementEntry (u : Placed BoundUnit) : Tracked Statement :=
  ⟨u.position, u.unit.statement⟩

/-- A unit among the cursors of a registry. -/
def cursorEntry (u : Placed BoundUnit) : Tracked CursorHandle :=
  ⟨u.position, ⟨u.unit.statement⟩⟩

namespace Effect

/-- What an effect adds to the statements of registry `x`. -/
def statement? (x : Nat) : Effect → Option (Tracked Statement)
  | trackStatement registry position s => if registry = x then some ⟨position, s⟩ else none
  | _ => none

/-- What an effect adds to the cursors of registry `x`. -/
def cursor? (x : Nat) : Effect → Option (Tracked CursorHandle)
  | trackCursor registry position handle => if registry = x then some ⟨position, handle⟩ else none
  | _ => none

/-- Whether an effect is for a registry. -/
def isTracking : Effect → Bool
  | trackStatement .. => true
  | trackCursor .. => true
  | _ => false

theorem filterMap_tracking {γ : Type} {f : Effect → Option γ}
    (hf : ∀ x, x.isTracking = false → f x = none) (xs : List Effect) :
    xs.filterMap f = (xs.filter isTracking).filterMap f := by
  rw [List.filterMap_filter]
  apply List.filterMap_congr
  intro x _
  cases hx : x.isTracking with
  | true => simp
  | false => simp [hf x hx]

end Effect

namespace Assignment

variable {b : Backend} {a : Assignment} {u : Placed BoundUnit} {x : Nat}

theorem filter_tracking_notes {xs : List Effect} (h : ∀ e ∈ xs, a.Notes e) :
    xs.filter Effect.isTracking = [] := by
  apply List.filter_eq_nil_iff.mpr
  intro e he
  cases h e he with
  | announce | countUnit => simp [Effect.isTracking]

theorem filter_tracking_afterCall : (afterCall b a u).1.filter Effect.isTracking =
    if a.kind = .query ∧ b.opens u.unit.statement then
      [.trackStatement a.registry u.position u.unit.statement,
        .trackCursor a.registry u.position ⟨u.unit.statement⟩]
    else [] := by
  rcases afterCall_cases b a u with ⟨hk, cursor, n, hq, hafter⟩ | ⟨hnot, hafter⟩
  · have hopens : b.opens u.unit.statement = true := by simp [Backend.opens, hq]
    simp [hafter, hk, hopens, Effect.isTracking, List.filter_cons]
  · have hopens : ¬ (a.kind = .query ∧ b.opens u.unit.statement) := by
      rintro ⟨hk, hopens⟩
      cases hq : b.query u.unit.statement with
      | answer cursor => exact hnot ⟨hk, cursor, hq⟩
      | failure | panic => simp [Backend.opens, hq] at hopens
    rw [hafter, if_neg hopens]
    rfl

/-- A unit tracks the statement and the cursor of its query, if that opens one. -/
theorem filter_tracking_work : (a.work b u).effects.filter Effect.isTracking =
    if a.kind = .query ∧ b.opens u.unit.statement then
      [.trackStatement a.registry u.position u.unit.statement,
        .trackCursor a.registry u.position ⟨u.unit.statement⟩]
    else [] := by
  have hbefore : (a.announce u .before).filter Effect.isTracking = [] :=
    filter_tracking_notes fun e => notes_announce
  have hconclude : (a.conclude u (a.afterCall b u).2).filter Effect.isTracking = [] :=
    filter_tracking_notes fun e => notes_conclude
  simp only [work, List.filter_append, hbefore, hconclude, List.nil_append, List.filter_cons,
    Effect.isTracking, Bool.false_eq_true, if_false, filter_tracking_afterCall, List.append_nil]

variable {γ : Type} {f : Effect → Option γ} {entry : Placed BoundUnit → γ}

/-- Of the effects of a unit `f` picks its entry in registry `x`, if it is tracked there. -/
def Enters (a : Assignment) (b : Backend) (x : Nat) (f : Effect → Option γ)
    (entry : Placed BoundUnit → γ) : Prop :=
  ∀ u, (a.work b u).effects.filterMap f = if a.tracks b x u then [entry u] else []

theorem enters_statements (a : Assignment) (b : Backend) (x : Nat) :
    a.Enters b x (Effect.statement? x) statementEntry := by
  intro u
  rw [Effect.filterMap_tracking, filter_tracking_work]
  · by_cases hx : a.registry = x <;> by_cases hk : a.kind = .query <;>
      cases ho : b.opens u.unit.statement <;>
      simp [tracks, hx, hk, ho, Effect.statement?, statementEntry, List.filterMap_cons]
  · intro e he
    cases e <;> first | rfl | cases he

theorem enters_cursors (a : Assignment) (b : Backend) (x : Nat) :
    a.Enters b x (Effect.cursor? x) cursorEntry := by
  intro u
  rw [Effect.filterMap_tracking, filter_tracking_work]
  · by_cases hx : a.registry = x <;> by_cases hk : a.kind = .query <;>
      cases ho : b.opens u.unit.statement <;>
      simp [tracks, hx, hk, ho, Effect.cursor?, cursorEntry, List.filterMap_cons]
  · intro e he
    cases e <;> first | rfl | cases he

theorem Enters.units (h : a.Enters b x f entry) (us : List (Placed BoundUnit)) :
    ((us.map (a.work b)).flatMap (·.effects)).filterMap f =
      (us.filter (a.tracks b x)).map entry := by
  induction us with
  | nil => rfl
  | cons u us ih =>
      rw [List.map_cons, List.flatMap_cons, List.filterMap_append, ih, h u]
      cases htracks : a.tracks b x u <;> simp [htracks]

/-- A failure of a unit bears the position of the unit. -/
theorem failure_of_work {e : ExecutionError} (h : (a.work b u).outcome = .failure e) :
    ∃ reason, e = unitError u reason := by
  have hcomes := comes_work b a u
  rw [h] at hcomes
  cases hcomes with
  | failure reason => exact ⟨reason, rfl⟩

end Assignment

/-! ## Calls -/

/-- The units of call number `k` that have started. -/
def Opened.ran (o : Opened) (k : Nat) (past : History Effect Output) : List (Placed BoundUnit) :=
  o.groups.zipIdx.flatMap fun (g, i) => g.units.filter fun u =>
    u.position ∈ History.starts (History.trail i (History.ofCall k past))

/-- No unit fails with an aggregate. -/
theorem Opened.task_plain (o : Opened) (b : Backend) (k : Nat) :
    ∀ u ∈ (o.task b k).units, ∀ e n, u.outcome ≠ .failure (.aggregate e n) := by
  intro u hu e n hfailure
  rw [o.task_units] at hu
  rcases List.mem_map.mp hu with ⟨w, -, rfl⟩
  rcases Assignment.failure_of_work hfailure with ⟨reason, hreason⟩
  cases hreason

/-- The units of all calls that have run and have opened a cursor for registry `x`. -/
def Journal.tracked (j : Journal) (b : Backend) (x : Nat) : List (Placed BoundUnit) :=
  j.calls.zipIdx.flatMap fun (o, k) => (o.ran k j.past).filter (o.assignment.tracks b x)

namespace Journal.Tells

variable {β γ : Type} {s : Session β} {j : Journal} {threads k x : Nat} {o : Opened}
  {f : Effect → Option γ} {entry : Placed BoundUnit → γ}

/-- What a call without jobs has done is what the units do that it has started. -/
theorem effects_of_quiet (h : j.Tells threads s) (ho : j.calls[k]? = some o)
    (hquiet : s.engine.hasReporter k = false) :
    (History.effects (History.ofCall k j.past)).Perm
      ((o.ran k j.past).flatMap fun u => (o.assignment.work s.backend u).effects) := by
  rcases h.orderly ho with ⟨sh, horderly, hjobs, hhistory⟩
  have hnone : sh.jobs = 0 := hjobs.trans (Engine.jobsOf_eq_zero.mpr hquiet)
  have hperm := horderly.effects_perm hnone (h.positions_nodup ho)
  rw [hhistory] at hperm
  refine hperm.trans (.of_eq ?_)
  rw [Opened.ran, Task.lanes, Opened.task, List.zipIdx_map, List.map_map, List.flatMap_map,
    List.flatMap_assoc]
  refine List.flatMap_congr ?_
  rintro ⟨g, i⟩ -
  have hunits (p : Work Effect Output → Bool) :
      ((g.units.map (o.assignment.work s.backend)).filter p).flatMap (·.effects) =
        (g.units.filter fun u => p (o.assignment.work s.backend u)).flatMap fun u =>
          (o.assignment.work s.backend u).effects := by
    rw [List.filter_map, List.flatMap_map]
    rfl
  exact hunits _

/-- What a call without jobs has entered is that of the units that it has started. -/
theorem entries_of_quiet (h : j.Tells threads s) (ho : j.calls[k]? = some o)
    (hf : o.assignment.Enters s.backend x f entry) (hquiet : s.engine.hasReporter k = false) :
    ((History.effects (History.ofCall k j.past)).filterMap f).Perm
      (((o.ran k j.past).filter (o.assignment.tracks s.backend x)).map entry) := by
  have hperm := (h.effects_of_quiet ho hquiet).filterMap f
  rwa [← List.flatMap_map, hf.units] at hperm

/-- Only the queries of an executor enter something in its registry. -/
theorem entries_eq_nil (h : j.Tells threads s) (ho : j.calls[k]? = some o)
    (hf : o.assignment.Enters s.backend x f entry)
    (hx : ¬ (o.assignment.registry = x ∧ o.assignment.kind = .query)) :
    (History.effects (History.ofCall k j.past)).filterMap f = [] := by
  rcases h.orderly ho with ⟨sh, horderly, -, hhistory⟩
  apply List.filterMap_eq_nil_iff.mpr
  intro effect heffect
  have hmem : effect ∈ History.effects sh.history := hhistory ▸ heffect
  rcases horderly.valid.mem_effects hmem with ⟨u, hu, heffect⟩
  rw [o.task_units] at hu
  rcases List.mem_map.mp hu with ⟨v, -, rfl⟩
  have hnone := hf v
  rw [if_neg (by simp [Assignment.tracks, hx])] at hnone
  exact List.filterMap_eq_nil_iff.mp hnone effect heffect

/-- Once a call has its values or an aggregate all its units have run. -/
theorem complete_of_answered (h : j.Tells threads s) (ho : j.calls[k]? = some o)
    {answer : Answer Output} (ha : s.engine.answer? k = some answer)
    (hanswer : (∃ slots, answer = .ok slots) ∨
      ∃ e n, answer = .error (.execution (.aggregate e n))) :
    ∃ sh : Share Effect Output, sh.history = History.ofCall k j.past ∧
      sh.Valid (o.task s.backend k) ∧ sh.Answered (o.task s.backend k) answer ∧
      sh.Complete (o.task s.backend k) := by
  rcases h.answered ho ha with ⟨sh, hhistory, v, hanswered⟩
  exact ⟨sh, hhistory, v, hanswered, hanswered.complete v (o.task_plain s.backend k) hanswer⟩

/-- Once a call has its values or an aggregate, all its units have made their entries. -/
theorem entries_of_answered (h : j.Tells threads s) (ho : j.calls[k]? = some o)
    (hf : o.assignment.Enters s.backend x f entry) {answer : Answer Output}
    (ha : s.engine.answer? k = some answer)
    (hanswer : (∃ slots, answer = .ok slots) ∨
      ∃ e n, answer = .error (.execution (.aggregate e n))) :
    ((History.effects (History.ofCall k j.past)).filterMap f).Perm
      ((o.units.filter (o.assignment.tracks s.backend x)).map entry) := by
  rcases h.complete_of_answered ho ha hanswer with ⟨sh, hhistory, v, -, hcomplete⟩
  have hperm := (hcomplete.effects_perm v).filterMap f
  rw [o.task_units, hf.units] at hperm
  rwa [hhistory] at hperm

/-- What was done was done by the calls, each of which has a number of its own. -/
theorem effects_parts (h : j.Tells threads s) : (History.effects j.past).Perm
    (j.calls.zipIdx.flatMap fun p => History.effects (History.ofCall p.2 j.past)) := by
  have hcovered : ∀ o ∈ j.past, o.site.call ∈ j.calls.zipIdx.map Prod.snd := by
    intro o ho
    rw [List.zipIdx_map_snd, ← List.range_eq_range', List.mem_range, h.length_eq]
    exact (Engine.sites_of_run h.recorded).2 o ho
  have hdistinct : (j.calls.zipIdx.map Prod.snd).Nodup := by
    rw [List.zipIdx_map_snd]
    exact List.nodup_range'
  have hparts := Partition.perm_parts (fun o : Occurrence Effect Output => o.site.call)
    hdistinct hcovered
  have heffects := hparts.filterMap Occurrence.effect?
  rw [List.flatMap_map, List.filterMap_flatMap] at heffects
  exact heffects.symm

/-- What all calls have entered, call by call. -/
theorem entries_perm (h : j.Tells threads s) (hf : ∀ a, Assignment.Enters a s.backend x f entry)
    (hquiet : ∀ k o, j.calls[k]? = some o → o.assignment.registry = x →
      s.engine.hasReporter k = false) :
    ((History.effects j.past).filterMap f).Perm ((j.tracked s.backend x).map entry) := by
  refine (h.effects_parts.filterMap f).trans ?_
  rw [List.filterMap_flatMap, tracked, List.map_flatMap]
  refine List.Perm.flatMap_left _ ?_
  rintro ⟨o, k⟩ hp
  have ho : j.calls[k]? = some o := List.mem_zipIdx_iff_getElem?.mp hp
  by_cases hx : o.assignment.registry = x
  · exact h.entries_of_quiet ho (hf _) (hquiet _ _ ho hx)
  · -- nothing was entered, and nothing is tracked
    have hnone : (o.ran k j.past).filter (o.assignment.tracks s.backend x) = [] :=
      List.filter_eq_nil_iff.mpr fun u _ => by simp [Assignment.tracks, hx]
    refine List.Perm.trans (.of_eq (h.entries_eq_nil ho (hf _) fun hq => hx hq.1))
      (.of_eq ?_)
    simp only [hnone, List.map_nil]

/-- What a call has entered is there, whatever others enter. -/
theorem entries_subperm (h : j.Tells threads s) (ho : j.calls[k]? = some o)
    (hf : o.assignment.Enters s.backend x f entry) {answer : Answer Output}
    (ha : s.engine.answer? k = some answer)
    (hanswer : (∃ slots, answer = .ok slots) ∨
      ∃ e n, answer = .error (.execution (.aggregate e n))) :
    ((o.units.filter (o.assignment.tracks s.backend x)).map entry).Subperm
      ((History.effects j.past).filterMap f) := by
  have hsub : ((History.effects (History.ofCall k j.past)).filterMap f).Sublist
      ((History.effects j.past).filterMap f) :=
    (List.filter_sublist.filterMap Occurrence.effect?).filterMap f
  exact (h.entries_of_answered ho hf ha hanswer).symm.subperm.trans hsub.subperm

end Journal.Tells

/-! ## Registries -/

namespace World

/-- An effect adds its entries to a registry. -/
theorem perform_registry {w : World} {x : Nat} {r : Tracking} (h : w.registries[x]? = some r)
    (e : Effect) : (w.perform e).registries[x]? =
      some ⟨r.statements ++ (e.statement? x).toList, r.cursors ++ (e.cursor? x).toList⟩ := by
  have hsame : some r = some (⟨r.statements ++ [], r.cursors ++ []⟩ : Tracking) := by simp
  cases e with
  | trackStatement registry position s =>
      by_cases hx : registry = x
      · subst hx
        simp [perform, h, Effect.statement?, Effect.cursor?,
          Registry.trackStatement]
      · simp [perform, h, Effect.statement?, Effect.cursor?, hx]
  | trackCursor registry position handle =>
      by_cases hx : registry = x
      · subst hx
        simp [perform, h, Effect.statement?, Effect.cursor?,
          Registry.trackCursor]
      · simp [perform, h, Effect.statement?, Effect.cursor?, hx]
  | readCursor handle =>
      cases hc : w.cursor? handle <;> simp [perform, hc, setCursor, h, Effect.statement?,
        Effect.cursor?]
  | announce | beginCall | endCall | openCursor | countUnit => exact h.trans hsame

theorem performAll_registry {w : World} {x : Nat} {r : Tracking} (h : w.registries[x]? = some r)
    (es : List Effect) : (es.foldl perform w).registries[x]? =
      some ⟨r.statements ++ es.filterMap (Effect.statement? x),
        r.cursors ++ es.filterMap (Effect.cursor? x)⟩ := by
  induction es generalizing w r with
  | nil => simpa using h
  | cons e es ih =>
      rw [List.foldl_cons, ih (perform_registry h e), List.append_assoc, List.append_assoc]
      cases hs : e.statement? x <;> cases hc : e.cursor? x <;> simp [hs, hc]

end World

namespace Session

variable {β : Type} {s s' : Session β} {j j' : Journal} {x : Nat} {m : Step β}

/-- A registry with all that was entered, as long as nobody sweeps it. -/
def Unswept (x : Nat) (s : Session β) (j : Journal) : Prop :=
  (∀ p ∈ s.sweeps, p.1 ≠ x) → s.world.registries[x]? =
    some ⟨(History.effects j.past).filterMap (Effect.statement? x),
      (History.effects j.past).filterMap (Effect.cursor? x)⟩

theorem unswept_step (h : s.Unswept x j) (hstep : s.step? m = some s') :
    s'.Unswept x (j.after s m) := by
  intro hfree
  cases m with
  | begin y kind =>
      rcases begin_eq_some hstep with ⟨calls, issued, w, hw, rfl⟩
      have hregistries : w.registries = s.world.registries := (congrArg World.registries hw :)
      exact (congrArg (·[x]?) hregistries).trans (h hfree)
  | engine m =>
      rcases Option.map_eq_some_iff.mp hstep with ⟨e', hmove, rfl⟩
      have hworld := (shown_of_step hmove).1
      rw [replay_eq_foldl] at hworld
      have hentered := World.performAll_registry (h hfree) (History.effects (s.shown m))
      rw [← hworld] at hentered
      rw [Journal.after, History.effects_append, List.filterMap_append, List.filterMap_append]
      exact hentered
  | conclude n =>
      rcases Option.map_eq_some_iff.mp hstep with ⟨⟨r, s₁⟩, hconclude, rfl⟩
      rcases conclude_eq_some hconclude with ⟨i, c, answer, success, -, -, -, -, rfl⟩
      exact h hfree
  | sweep i =>
      rcases sweepStep?_eq_some hstep with ⟨y, sweep, sweep', r, w, hsweep, hw, rfl⟩
      have hy : y ≠ x := hfree (y, sweep') (List.mem_of_getElem? (i := i) (by
        simp [(List.getElem?_eq_some_iff.mp hsweep).1]))
      have hbefore : ∀ p ∈ s.sweeps, p.1 ≠ x := by
        intro p hp
        rcases List.getElem?_of_mem hp with ⟨n, hn⟩
        by_cases hin : i = n
        · subst hin
          rw [hsweep] at hn
          cases hn
          exact hy
        · have hkept : (s.sweeps.set i (y, sweep'))[n]? = some p := by
            rwa [List.getElem?_set_ne hin]
          exact hfree p (List.mem_of_getElem? hkept)
      have hregistries : w.registries = s.world.registries.set y r :=
        (congrArg World.registries hw :)
      have hother : (s.world.registries.set y r)[x]? = s.world.registries[x]? :=
        List.getElem?_set_ne hy
      exact (congrArg (·[x]?) hregistries).trans (hother.trans (h hbefore))
  | beginSweep y =>
      cases hstep
      exact h fun p hp => hfree p (List.mem_append_left _ hp)
  | insert | remove | clear | setRethrow =>
      cases hstep
      exact h hfree

theorem unswept_of_run {threads : Nat} {backend : Backend} {executors : List Executor}
    {recorders : Nat} (hx : x < executors.length)
    (h : Run journaled? (Session.start threads backend executors recorders, .empty) (s, j)) :
    s.Unswept x j := by
  refine Run.preserves (P := fun r : Session β × Journal => r.1.Unswept x r.2) ?_ h ?_
  · rintro ⟨s, j⟩ ⟨s', j'⟩ m hs hstep
    rcases journaled?_eq_some.mp hstep with ⟨hm, rfl⟩
    exact unswept_step hs hm
  · intro _
    have hnothing : History.effects ([] : History Effect Output) = [] := rfl
    simp [Session.start, world, Engine.new, Registry.empty, Journal.empty, hx, hnothing]

/-- A registry that nobody sweeps holds an entry for each unit of a query that has run and has
opened a cursor, and nothing else, once no unit of its executor is under way.  The entries of a
query are there when it has its results or an aggregate. -/
theorem registry_tracks_queries {threads : Nat} {backend : Backend} {executors : List Executor}
    {recorders : Nat} (hx : x < executors.length)
    (hrun : Run journaled? (Session.start threads backend executors recorders, .empty) (s, j))
    (hfree : ∀ p ∈ s.sweeps, p.1 ≠ x) :
    (j.units.map fun u => u.unit.statement.id).Nodup ∧
    ((∀ k o, j.calls[k]? = some o → o.assignment.registry = x → s.engine.hasReporter k = false) →
      (s.registry x).statements.Perm ((j.tracked s.backend x).map statementEntry) ∧
      (s.registry x).cursors.Perm ((j.tracked s.backend x).map cursorEntry)) ∧
    ∀ k o answer, j.calls[k]? = some o → s.engine.answer? k = some answer →
      ((∃ slots, answer = .ok slots) ∨ ∃ e n, answer = .error (.execution (.aggregate e n))) →
      ((o.units.filter (o.assignment.tracks s.backend x)).map statementEntry).Subperm
        (s.registry x).statements ∧
      ((o.units.filter (o.assignment.tracks s.backend x)).map cursorEntry).Subperm
        (s.registry x).cursors := by
  have h := tells_of_run hrun
  have hregistry : s.registry x =
      ⟨(History.effects j.past).filterMap (Effect.statement? x),
        (History.effects j.past).filterMap (Effect.cursor? x)⟩ := by
    rw [registry, unswept_of_run hx hrun hfree, Option.getD_some]
  rw [hregistry]
  have hstatements (a : Assignment) := a.enters_statements s.backend x
  have hcursors (a : Assignment) := a.enters_cursors s.backend x
  refine ⟨h.statements.nodup List.nodup_range, ?_, ?_⟩
  · intro hquiet
    exact ⟨h.entries_perm hstatements hquiet, h.entries_perm hcursors hquiet⟩
  · intro k o answer ho ha hanswer
    exact ⟨h.entries_subperm ho (hstatements _) ha hanswer,
      h.entries_subperm ho (hcursors _) ha hanswer⟩

/-! ## An example -/

/-- Under fail-fast a query stops at the unit whose rows break off, and its last unit is skipped.
Under best effort the next query runs all of its units, and the one behind it panics over the rows
of its first unit. -/
def tornSteps : List (Step Unit) :=
  calling .query 0 0 3 26 2 ++ .setRethrow false :: calling .query 0 1 3 36 3 ++
    calling .query 0 2 3 10 1

/-- The units that fail or panic over their rows have entries, and one that is skipped has none. -/
theorem registry_tracks_queries_torn : ∃ (s : Session Unit) (j : Journal) (o : Opened)
    (e : ExecutionError), Run journaled? (start 1 .torn [.packed] 0, .empty) (s, j) ∧
      s.engine.pool.panicked = 1 ∧
      (j.tracked s.backend 0).map Placed.position = [0, 1, 0, 1, 2, 0] ∧
      (s.registry 0).statements.Perm ((j.tracked s.backend 0).map statementEntry) ∧
      (s.registry 0).cursors.Perm ((j.tracked s.backend 0).map cursorEntry) ∧
      j.calls[1]? = some o ∧ o.units.length = 3 ∧
      s.engine.answer? 1 = some (.error (.execution (.aggregate e 1))) ∧
      (o.units.map statementEntry).Subperm (s.registry 0).statements ∧
      (o.units.map cursorEntry).Subperm (s.registry 0).cursors := by
  have hseen : ∃ r ∈ tornSteps.foldlM journaled? (start 1 .torn [.packed] 0, .empty),
      r.1.sweeps.length = 0 ∧ r.1.engine.jobs.length = 0 ∧ r.1.engine.pool.panicked = 1 ∧
      (r.2.tracked r.1.backend 0).map Placed.position = [0, 1, 0, 1, 2, 0] ∧
      (∃ o ∈ r.2.calls[1]?, o.units.length = 3 ∧
        ∀ u ∈ o.units, o.assignment.tracks r.1.backend 0 u = true) ∧
      ∃ answer ∈ r.1.engine.answer? 1, answer.failures? = some 1 := by
    decide +kernel
  rcases hseen with ⟨⟨s, j⟩, hmoves, hsweeps, hjobs, hpanicked, htracked, ⟨o, ho, hthree, htracks⟩,
    answer, hanswer, hfailures⟩
  obtain ⟨e, rfl⟩ : ∃ e, answer = .error (.execution (.aggregate e 1)) := by
    simpa using Answer.failures?_eq_some hfailures
  have hrun := Run.of_moves hmoves
  have hsweeps : s.sweeps = [] := List.eq_nil_of_length_eq_zero hsweeps
  have hjobs : s.engine.jobs = [] := List.eq_nil_of_length_eq_zero hjobs
  rcases registry_tracks_queries (x := 0) (by decide) hrun (by simp [hsweeps]) with
    ⟨-, hquiet, hanswered⟩
  rcases hquiet fun k o _ _ => by simp [Engine.hasReporter, hjobs] with ⟨hstatements, hcursors⟩
  have hentries := hanswered 1 o _ ho hanswer (.inr ⟨e, 1, rfl⟩)
  rw [List.filter_eq_self.mpr htracks] at hentries
  exact ⟨s, j, o, e, hrun, hpanicked, htracked, hstatements, hcursors, ho, hthree, hanswer,
    hentries⟩

end Session

end ScatterGather
