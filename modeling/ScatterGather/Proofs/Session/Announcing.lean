import ScatterGather.Proofs.Session.Tracking

/-!
# Announcing — what a listener hears of the units of a group

Every unit that starts announces itself, and behind its call it announces how it came out, unless
the call has panicked.  Units of all calls announce to the same recorders, but each event bears the
number of its call and the position of its unit.  So a recorder has the events of one group in the
order of the group, whatever it hears in between.

* `Opened.told` : what is to be heard of a unit;
* `Assignment.heard_work` : it is what the unit announces;
* `Session.heard_of_run` : a recorder keeps what it hears;
* `Journal.Dated` : every call has a number of its own;
* `Journal.Tells.events_eq` : the events of a group among all that a recorder has;
* `Session.events_follow_group` : they are those of the units that have started.
-/

namespace ScatterGather

/-! ## Units -/

/-- The event that an effect announces to recorder `r`. -/
def Effect.heard? (r : Nat) : Effect → Option Event
  | announce recorder event => if recorder = r then some event else none
  | _ => none

/-- What is told of a unit of a call that runs. -/
def Opened.told (o : Opened) (b : Backend) (u : Placed BoundUnit) : List Event :=
  let event (kind : EventKind) : Event :=
    { queryId := o.issue.queryId
      position := u.position
      target := u.unit.route.target
      sql := u.unit.route.statement.sql
      sqlType := o.executor.sqlType
      kind }
  match (o.assignment.work b u).outcome with
  | .value _ => [event .before, event .success]
  | .failure e => [event .before, event (.failure e.message)]
  | .panic => [event .before]

/-- Whether an event is about a unit of the call that is in group `g`. -/
def Opened.mine (o : Opened) (g : Group Connection BoundUnit) (event : Event) : Bool :=
  decide (event.queryId = o.issue.queryId ∧ event.position ∈ g.units.map (·.position))

namespace Assignment

variable {b : Backend} {a : Assignment} {u : Placed BoundUnit} {r : Nat}

theorem heard_announce (kind : EventKind) : (a.announce u kind).filterMap (Effect.heard? r) =
    List.replicate (a.bus.listeners.count r) (a.event u kind) := by
  simp only [announce]
  induction a.bus.listeners with
  | nil => rfl
  | cons recorder listeners ih =>
      rw [List.map_cons, List.filterMap_cons, ih, List.count_cons]
      by_cases hr : recorder = r
      · simp [Effect.heard?, hr, List.replicate_succ]
      · simp [Effect.heard?, hr]

theorem heard_afterCall : (a.afterCall b u).1.filterMap (Effect.heard? r) = [] := by
  rcases afterCall_cases b a u with ⟨-, cursor, n, -, hafter⟩ | ⟨-, hafter⟩
  · simp [hafter, List.filterMap_cons, Effect.heard?]
  · rw [hafter]
    rfl

/-- A listener hears of a unit that it starts and, unless it panics, how it comes out. -/
theorem heard_work (hone : a.bus.listeners.count r = 1) :
    (a.work b u).effects.filterMap (Effect.heard? r) =
      a.event u .before :: match (a.work b u).outcome with
        | .value _ => [a.event u .success]
        | .failure e => [a.event u (.failure e.message)]
        | .panic => [] := by
  have hcall : (a.work b u).outcome = (a.afterCall b u).2 := rfl
  have hbefore : (a.announce u .before).filterMap (Effect.heard? r) = [a.event u .before] := by
    rw [heard_announce, hone, List.replicate_one]
  have hconclude : (a.conclude u (a.afterCall b u).2).filterMap (Effect.heard? r) =
      match (a.afterCall b u).2 with
        | .value _ => [a.event u .success]
        | .failure e => [a.event u (.failure e.message)]
        | .panic => [] := by
    cases (a.afterCall b u).2 with
    | value output =>
        simp only [conclude, List.filterMap_cons, heard_announce, hone, List.replicate_one,
          Effect.heard?]
    | failure e =>
        simp only [conclude, List.filterMap_cons, heard_announce, hone, List.replicate_one,
          Effect.heard?]
    | panic => rfl
  rw [hcall, ← hconclude]
  simp only [work, List.filterMap_append, hbefore, List.filterMap_cons, heard_afterCall,
    Effect.heard?, List.nil_append, List.singleton_append]

/-- An event that a unit announces is about the unit. -/
theorem event_of_mem {event : Event} (h : .announce r event ∈ (a.work b u).effects) :
    ∃ kind, event = a.event u kind := by
  have hannounced {kind : EventKind} (h : .announce r event ∈ a.announce u kind) :
      ∃ kind, event = a.event u kind := by
    rcases List.mem_map.mp h with ⟨recorder, -, heq⟩
    cases heq
    exact ⟨kind, rfl⟩
  simp only [work, List.mem_append, List.mem_cons, reduceCtorEq, false_or] at h
  rcases h with h | h | h
  · exact hannounced h
  · rcases afterCall_cases b a u with ⟨-, cursor, n, -, hafter⟩ | ⟨-, hafter⟩
    · simp [hafter, List.mem_replicate] at h
    · simp [hafter] at h
  · cases hout : (a.afterCall b u).2 with
    | value output =>
        simp only [hout, conclude, List.mem_cons, reduceCtorEq, false_or] at h
        exact hannounced h
    | failure e =>
        simp only [hout, conclude, List.mem_cons, reduceCtorEq, false_or] at h
        exact hannounced h
    | panic => simp [hout, conclude] at h

end Assignment

/-- A listener of the executor hears of a unit what is told of it. -/
theorem Opened.heard_work {o : Opened} (b : Backend) {r : Nat}
    (hsql : o.assignment.sqlType = o.executor.sqlType)
    (hone : o.assignment.bus.listeners.count r = 1) (u : Placed BoundUnit) :
    (o.assignment.work b u).effects.filterMap (Effect.heard? r) = o.told b u := by
  rw [Assignment.heard_work hone, told]
  cases (o.assignment.work b u).outcome <;> simp only [Assignment.event, hsql] <;> rfl

/-! ## Recorders -/

namespace World

variable {w : World} {r : Nat} {events : List Event}

theorem perform_recorders (h : w.recorders[r]? = some events) (e : Effect) :
    (w.perform e).recorders[r]? = some (events ++ (e.heard? r).toList) := by
  have hsame : some events = some (events ++ []) := by simp
  cases e with
  | announce recorder event =>
      by_cases hr : recorder = r
      · subst hr
        simp [perform, Recorders.record, h, Effect.heard?]
      · simp [perform, Recorders.record, h, hr, Effect.heard?]
  | readCursor handle =>
      cases hc : w.cursor? handle <;> simp [perform, hc, setCursor, h, Effect.heard?]
  | beginCall | endCall | openCursor | trackStatement | trackCursor | countUnit =>
      exact h.trans hsame

theorem performAll_recorders (h : w.recorders[r]? = some events) (es : List Effect) :
    (es.foldl perform w).recorders[r]? = some (events ++ es.filterMap (Effect.heard? r)) := by
  induction es generalizing w events with
  | nil => simpa using h
  | cons e es ih =>
      rw [List.foldl_cons, ih (perform_recorders h e), List.append_assoc]
      cases hr : e.heard? r <;> simp [hr]

end World

namespace Session

variable {β : Type} {s s' : Session β} {j j' : Journal} {r : Nat} {m : Step β}

/-- A recorder has kept what it has heard. -/
def Heard (r : Nat) (s : Session β) (j : Journal) : Prop :=
  s.world.recorders[r]? = some ((History.effects j.past).filterMap (Effect.heard? r))

theorem heard_step (h : s.Heard r j) (hstep : s.step? m = some s') : s'.Heard r (j.after s m) := by
  cases m with
  | begin x kind =>
      rcases begin_eq_some hstep with ⟨calls, issued, w, hw, rfl⟩
      have hrecorders : w.recorders = s.world.recorders := (congrArg World.recorders hw :)
      exact (congrArg (fun rs : Recorders => rs[r]?) hrecorders).trans h
  | engine m =>
      rcases Option.map_eq_some_iff.mp hstep with ⟨e', hmove, rfl⟩
      have hworld := (shown_of_step hmove).1
      rw [replay_eq_foldl] at hworld
      have hheard := World.performAll_recorders h (History.effects (s.shown m))
      rw [← hworld] at hheard
      rw [Heard, Journal.after, History.effects_append, List.filterMap_append]
      exact hheard
  | conclude n =>
      rcases Option.map_eq_some_iff.mp hstep with ⟨⟨response, s₁⟩, hconclude, rfl⟩
      rcases conclude_eq_some hconclude with ⟨i, c, answer, success, -, -, -, -, rfl⟩
      exact h
  | sweep i =>
      rcases sweepStep?_eq_some hstep with ⟨x, sweep, sweep', registry, w, -, hw, rfl⟩
      have hrecorders : w.recorders = s.world.recorders := (congrArg World.recorders hw :)
      exact (congrArg (fun rs : Recorders => rs[r]?) hrecorders).trans h
  | insert | remove | clear | setRethrow | beginSweep =>
      cases hstep
      exact h

theorem heard_of_run {threads : Nat} {backend : Backend} {executors : List Executor}
    {recorders : Nat} (hr : r < recorders)
    (h : Run journaled? (start threads backend executors recorders, .empty) (s, j)) :
    s.Heard r j := by
  refine Run.preserves (P := fun p : Session β × Journal => p.1.Heard r p.2) ?_ h ?_
  · rintro ⟨s, j⟩ ⟨s', j'⟩ m hs hstep
    rcases journaled?_eq_some.mp hstep with ⟨hm, rfl⟩
    exact heard_step hs hm
  · exact List.getElem?_replicate_of_lt hr

end Session

/-! ## Calls -/

/-- The calls of a journal have the settings of their executors and numbers of their own, the later
ones higher numbers. -/
structure Journal.Dated {β : Type} (s : Session β) (j : Journal) : Prop where
  settings : ∀ o ∈ j.calls,
    o.assignment.sqlType = o.executor.sqlType ∧ o.assignment.bus = o.executor.bus
  rising : (j.calls.map fun o => o.issue.queryId).Pairwise (· < ·)
  taken : ∀ o ∈ j.calls, o.issue.queryId ≤ s.snapshots

namespace Journal.Dated

variable {β : Type} {s s' : Session β} {j j' : Journal} {m : Session.Step β}

/-- A call that is begun is on a page of its own, unless it is refused. -/
theorem page_cases (j : Journal) (s : Session β) (x : Nat) (kind : EntryPoint) :
    j.after s (.begin x kind) = j ∨ ∃ o : Opened, o.assignment.sqlType = o.executor.sqlType ∧
      o.assignment.bus = o.executor.bus ∧ o.issue.queryId = s.snapshots + 1 ∧
      j.after s (.begin x kind) = { j with calls := j.calls ++ [o] } := by
  cases hopened : s.executors[x]?.bind fun e => s.opened? x e kind with
  | none => exact .inl (by simp [after, hopened])
  | some o =>
      refine .inr ⟨o, ?_⟩
      rcases Option.bind_eq_some_iff.mp hopened with ⟨e, -, ho⟩
      rw [Session.opened?] at ho
      split at ho
      · cases ho
        exact ⟨rfl, rfl, rfl, by simp [after, hopened]⟩
      · cases ho

theorem step (h : j.Dated s) (hstep : s.step? m = some s') : (j.after s m).Dated s' := by
  cases m with
  | begin x kind =>
      -- each call takes a snapshot, admitted or not, and no two snapshots have one number
      rcases Session.begin_eq_some hstep with ⟨calls, issued, w, -, rfl⟩
      have hold : ∀ o ∈ j.calls, o.issue.queryId < s.snapshots + 1 :=
        fun o ho => Nat.lt_succ_of_le (h.taken o ho)
      rcases page_cases j s x kind with hsame | ⟨o, hsql, hbus, hid, hpage⟩
      · rw [hsame]
        exact ⟨h.settings, h.rising, fun o ho => (hold o ho).le⟩
      · rw [hpage]
        refine ⟨?_, ?_, ?_⟩
        · intro o' ho'
          rcases List.mem_append.mp ho' with ho' | ho'
          · exact h.settings o' ho'
          · cases List.mem_singleton.mp ho'
            exact ⟨hsql, hbus⟩
        · rw [List.map_append, List.pairwise_append]
          refine ⟨h.rising, List.pairwise_singleton .., ?_⟩
          simpa [hid] using hold
        · intro o' ho'
          rcases List.mem_append.mp ho' with ho' | ho'
          · exact (hold o' ho').le
          · cases List.mem_singleton.mp ho'
            exact hid.le
  | engine m =>
      rcases Option.map_eq_some_iff.mp hstep with ⟨e', -, rfl⟩
      exact ⟨h.settings, h.rising, h.taken⟩
  | conclude n =>
      rcases Option.map_eq_some_iff.mp hstep with ⟨⟨response, s₁⟩, hconclude, rfl⟩
      rcases Session.conclude_eq_some hconclude with ⟨i, c, answer, success, -, -, -, -, rfl⟩
      exact ⟨h.settings, h.rising, h.taken⟩
  | sweep i =>
      rcases Session.sweepStep?_eq_some hstep with ⟨x, sweep, sweep', registry, w, -, -, rfl⟩
      exact ⟨h.settings, h.rising, h.taken⟩
  | insert | remove | clear | setRethrow | beginSweep =>
      cases hstep
      exact ⟨h.settings, h.rising, h.taken⟩

theorem of_run {threads : Nat} {backend : Backend} {executors : List Executor} {recorders : Nat}
    (h : Run Session.journaled? (Session.start threads backend executors recorders, .empty)
      (s, j)) : j.Dated s := by
  refine Run.preserves (P := fun p : Session β × Journal => p.2.Dated p.1) ?_ h
    ⟨by simp [Journal.empty], by simp [Journal.empty], by simp [Journal.empty]⟩
  rintro ⟨s, j⟩ ⟨s', j'⟩ m hs hstep
  rcases Session.journaled?_eq_some.mp hstep with ⟨hm, rfl⟩
  exact hs.step hm

/-- The number of a call tells which one it is. -/
theorem call_eq (h : j.Dated s) {k k' : Nat} {o o' : Opened} (ho : j.calls[k]? = some o)
    (ho' : j.calls[k']? = some o') (hid : o.issue.queryId = o'.issue.queryId) : k = k' := by
  have hnodup : (j.calls.map fun o => o.issue.queryId).Nodup := h.rising.imp Nat.ne_of_lt
  refine (List.getElem?_inj ?_ hnodup).mp ?_
  · simpa using (List.getElem?_eq_some_iff.mp ho).1
  · simp [ho, ho', hid]

end Journal.Dated

/-! ## Events of a group -/

/-- If all that `f` picks for `mine` was done by one batch of one call, it can be picked from what
that batch has done. -/
theorem History.filter_effects_of_owner {κ α γ : Type} {f : κ → Option γ} {mine : γ → Bool}
    {k i : Nat} (h : History κ α)
    (howner : ∀ o ∈ h, ∀ x y, o.effect? = some x → f x = some y →
      mine y = (o.site.call == k && o.site.batch == i)) :
    ((History.effects h).filterMap f).filter mine =
      (History.effects (History.trail i (History.ofCall k h))).filterMap f := by
  simp only [effects, trail, ofCall, List.filterMap_filterMap, List.filter_filter,
    List.filterMap_filter, List.filter_filterMap]
  refine List.filterMap_congr fun o ho => ?_
  cases hx : o.effect? with
  | none => simp
  | some x =>
      cases hy : f x with
      | none => by_cases hsite : o.site.batch = i ∧ o.site.call = k <;> simp [hsite, hy]
      | some y =>
          have hmine := howner o ho x y hx hy
          by_cases hsite : o.site.batch = i ∧ o.site.call = k
          · simp [hy, hmine, hsite]
          · have hnot : (o.site.call == k && o.site.batch == i) = false := by
              rw [Bool.and_comm]
              simpa using hsite
            simp [hy, hmine, hnot, hsite]

namespace Journal.Tells

variable {β : Type} {s : Session β} {j : Journal} {threads k i r : Nat} {o : Opened}
  {g : Group Connection BoundUnit}

/-- Whatever was done was done by a unit of the group that it is noted for. -/
theorem unit_of_effect (h : j.Tells threads s) {occurrence : Occurrence Effect Output}
    (hmem : occurrence ∈ j.past) {x : Effect} (hx : occurrence.effect? = some x) :
    ∃ o g u, j.calls[occurrence.site.call]? = some o ∧
      o.groups[occurrence.site.batch]? = some g ∧ u ∈ g.units ∧
      x ∈ (o.assignment.work s.backend u).effects := by
  have hlt := (Engine.sites_of_run h.recorded).2 occurrence hmem
  rcases h.exists_page hlt with ⟨o, ho⟩
  rcases h.orderly ho with ⟨sh, horderly, -, hhistory⟩
  have hown : occurrence ∈ sh.history := by
    rw [hhistory]
    exact List.mem_filter.mpr ⟨hmem, by simp⟩
  have hbatch := List.getElem?_eq_getElem (horderly.valid.sites occurrence hown).2
  rcases Opened.getElem?_batches.mp hbatch with ⟨g, hg, hsame⟩
  rw [hsame] at hbatch
  have htrail : x ∈ History.effects (History.trail occurrence.site.batch sh.history) :=
    List.mem_filterMap.mpr ⟨occurrence, List.mem_filter.mpr ⟨hown, by simp⟩, hx⟩
  rcases horderly.valid.mem_lane_effects (Task.mem_lanes.mpr ⟨_, _, hbatch, rfl⟩) htrail with
    ⟨w, hw, hxw⟩
  rcases List.mem_map.mp hw with ⟨u, hu, rfl⟩
  exact ⟨o, g, u, ho, hg, hu, hxw⟩

/-- No two groups of a call have a unit of one position. -/
theorem group_eq (h : j.Tells threads s) (ho : j.calls[k]? = some o) {i' : Nat}
    {g' : Group Connection BoundUnit} {position : Nat} (hg : o.groups[i]? = some g)
    (hg' : o.groups[i']? = some g') (hp : position ∈ g.units.map (·.position))
    (hp' : position ∈ g'.units.map (·.position)) : i = i' := by
  have hnodup : ((o.task s.backend k).units.map (·.position)).Nodup :=
    (h.task_numbered ho).nodup_iff.mpr List.nodup_range
  have hpositions : (o.task s.backend k).units.map (·.position) =
      o.groups.flatMap fun g => g.units.map (·.position) := by
    rw [o.task_units, List.map_map, Opened.units, List.map_flatMap]
    rfl
  rw [hpositions] at hnodup
  have hapart := List.pairwise_iff_getElem.mp (List.nodup_flatMap.mp hnodup).2
  rcases List.getElem?_eq_some_iff.mp hg with ⟨hlt, rfl⟩
  rcases List.getElem?_eq_some_iff.mp hg' with ⟨hlt', rfl⟩
  rcases Nat.lt_trichotomy i i' with hless | hsame | hless
  · exact absurd hp' (hapart i i' hlt hlt' hless hp)
  · exact hsame
  · exact absurd hp (hapart i' i hlt' hlt hless hp')

/-- Of all events that a recorder has heard those of a group were announced by the group. -/
theorem events_eq (h : j.Tells threads s) (hdated : j.Dated s) (ho : j.calls[k]? = some o)
    (hg : o.groups[i]? = some g) (hheard : s.Heard r j) :
    (s.world.recorders.events r).filter (o.mine g) =
      (History.effects (History.trail i (History.ofCall k j.past))).filterMap
        (Effect.heard? r) := by
  have hevents : s.world.recorders.events r =
      (History.effects j.past).filterMap (Effect.heard? r) := by
    rw [Recorders.events, hheard, Option.getD_some]
  rw [hevents]
  refine History.filter_effects_of_owner j.past ?_
  intro occurrence hmem x event hx hevent
  rcases h.unit_of_effect hmem hx with ⟨o', g', u, ho', hg', hu, hxu⟩
  -- the event is about a unit of the group that has announced it
  obtain ⟨kind, rfl⟩ : ∃ kind, event = o'.assignment.event u kind := by
    cases x with
    | announce recorder event' =>
        by_cases hr : recorder = r
        · rw [Effect.heard?, if_pos hr, Option.some.injEq] at hevent
          exact hevent ▸ Assignment.event_of_mem hxu
        · simp [Effect.heard?, hr] at hevent
    | beginCall | endCall | openCursor | trackStatement | trackCursor | readCursor | countUnit =>
        cases hevent
  have hposition : u.position ∈ g'.units.map (·.position) := List.mem_map_of_mem hu
  rw [Bool.eq_iff_iff, Bool.and_eq_true, beq_iff_eq, beq_iff_eq, Opened.mine, decide_eq_true_iff]
  -- the number tells the call and the position the group, and the other way round
  constructor
  · rintro ⟨hid, hin⟩
    have hk := hdated.call_eq ho' ho hid
    rw [hk, ho] at ho'
    cases ho'
    exact ⟨hk, h.group_eq ho hg' hg hposition hin⟩
  · rintro ⟨hk, hi⟩
    rw [hk, ho] at ho'
    cases ho'
    rw [hi, hg] at hg'
    cases hg'
    exact ⟨rfl, hposition⟩

/-- What a batch that is not under way has announced. -/
theorem heard_of_passed (h : j.Tells threads s) (ho : j.calls[k]? = some o)
    (hg : o.groups[i]? = some g) (hquiet : s.engine.hasReporter k = false)
    (hheard : ∀ u, (o.assignment.work s.backend u).effects.filterMap (Effect.heard? r) =
      o.told s.backend u) :
    ∃ ran, ran <+: g.units ∧
      History.starts (History.trail i (History.ofCall k j.past)) = ran.map (·.position) ∧
      (∀ u ∈ ran.dropLast, (o.assignment.work s.backend u).outcome ≠ .panic) ∧
      (History.effects (History.trail i (History.ofCall k j.past))).filterMap (Effect.heard? r) =
        ran.flatMap (o.told s.backend) := by
  rcases h.orderly ho with ⟨sh, horderly, hjobs, hhistory⟩
  have hnone : sh.jobs = 0 := hjobs.trans (Engine.jobsOf_eq_zero.mpr hquiet)
  have hbatch := Opened.getElem?_batches (b := s.backend) (k := k).mpr ⟨g, hg, rfl⟩
  rcases horderly.spent i _ hbatch (by simp [hnone]) with ⟨front, hfront, hpassed⟩
  have hpasses := horderly.passes_of_passed (Opened.mem_lanes s.backend k hg) hfront hpassed
  rw [hhistory] at hpassed
  -- the works that have passed are those of the first units of the group
  obtain ⟨ran, hran, rfl⟩ :
      ∃ ran, ran <+: g.units ∧ front = ran.map (o.assignment.work s.backend) := by
    refine ⟨g.units.take front.length, List.take_prefix .., ?_⟩
    rw [List.map_take]
    exact List.prefix_iff_eq_take.mp hfront
  refine ⟨ran, hran, ?_, ?_, ?_⟩
  · rw [hpassed.starts, List.map_map]
    rfl
  · intro u hu
    rw [← List.map_dropLast] at hpasses
    exact (hpasses _ (List.mem_map_of_mem hu)).ne_panic
  · rw [hpassed.effects, List.flatMap_map, List.filterMap_flatMap]
    exact List.flatMap_congr fun u _ => hheard u

/-- What a call that has its values or an aggregate has announced. -/
theorem heard_of_answered (h : j.Tells threads s) (ho : j.calls[k]? = some o)
    (hg : o.groups[i]? = some g) {answer : Answer Output}
    (ha : s.engine.answer? k = some answer)
    (hanswer : (∃ slots, answer = .ok slots) ∨
      ∃ e n, answer = .error (.execution (.aggregate e n)))
    (hheard : ∀ u, (o.assignment.work s.backend u).effects.filterMap (Effect.heard? r) =
      o.told s.backend u) :
    (History.effects (History.trail i (History.ofCall k j.past))).filterMap (Effect.heard? r) =
      g.units.flatMap (o.told s.backend) := by
  rcases h.complete_of_answered ho ha hanswer with ⟨sh, hhistory, v, -, hcomplete⟩
  have hall : History.effects (History.trail i (History.ofCall k j.past)) =
      (g.units.map (o.assignment.work s.backend)).flatMap (·.effects) :=
    hhistory ▸ hcomplete.lane_effects (Opened.mem_lanes s.backend k hg)
  rw [hall, List.flatMap_map, List.filterMap_flatMap]
  exact List.flatMap_congr fun u _ => hheard u

end Journal.Tells

namespace Session

variable {β : Type} {s : Session β} {j : Journal} {k i r : Nat} {o : Opened}
  {g : Group Connection BoundUnit}

/-- A listener has of each group the events of the units that have started, unit by unit in the
order of the group, as soon as no job of the call is left.  If a unit has panicked it is the last.
When a call has its values or an aggregate, the listener has the events of all its units. -/
theorem events_follow_group {threads : Nat} {backend : Backend} {executors : List Executor}
    {recorders : Nat}
    (hrun : Run journaled? (start threads backend executors recorders, .empty) (s, j))
    (ho : j.calls[k]? = some o) (hg : o.groups[i]? = some g) (hr : r < recorders)
    (hlistens : r ∈ o.executor.bus.listeners) (hdistinct : o.executor.bus.listeners.Nodup) :
    s.issued[k]? = some o.issue ∧
    (∀ u ∈ g.units, o.executor.route[u.position]? = some u.unit.route) ∧
    (s.engine.hasReporter k = false → ∃ ran, ran <+: g.units ∧
      History.starts (History.trail i (History.ofCall k j.past)) = ran.map (·.position) ∧
      (∀ u ∈ ran.dropLast, (o.assignment.work s.backend u).outcome ≠ .panic) ∧
      (s.world.recorders.events r).filter (o.mine g) = ran.flatMap (o.told s.backend)) ∧
    ∀ answer, s.engine.answer? k = some answer →
      ((∃ slots, answer = .ok slots) ∨ ∃ e n, answer = .error (.execution (.aggregate e n))) →
      (s.world.recorders.events r).filter (o.mine g) = g.units.flatMap (o.told s.backend) := by
  have h := tells_of_run hrun
  have hdated := Journal.Dated.of_run hrun
  have hevents := h.events_eq hdated ho hg (heard_of_run hr hrun)
  have hmem := List.mem_of_getElem? ho
  rcases hdated.settings o hmem with ⟨hsql, hbus⟩
  have hone : o.assignment.bus.listeners.count r = 1 :=
    hbus ▸ List.count_eq_one_of_mem hdistinct hlistens
  have hheard := Opened.heard_work s.backend hsql hone
  refine ⟨h.issue_eq ho, ?_, ?_, ?_⟩
  · rcases h.grouped o hmem with ⟨w, w', hgroups⟩
    exact fun u hu => (Grouping.bound_of_mem hgroups (List.mem_of_getElem? hg) hu).1
  · rw [hevents]
    exact fun hquiet => h.heard_of_passed ho hg hquiet hheard
  · rw [hevents]
    exact fun answer ha hanswer => h.heard_of_answered ho hg ha hanswer hheard

end Session

/-! ## An example -/

/-- Three targets on one connection, with two listeners. -/
def Executor.heeded : Executor :=
  { Executor.triple with cap := 1, bus := ⟨[1, 0]⟩ }

/-- The second target cannot be updated without a panic. -/
def Backend.stumbling : Backend :=
  { Backend.willing with
    update := fun s => if s.route.target = "ds_1" then .panic else .answer none }

namespace Session

/-- An update runs until its job is over. -/
def stumble : List (Step Unit) :=
  calling .update 0 0 2 17 0

theorem events_follow_group_stumble : ∃ (s : Session Unit) (j : Journal) (o : Opened)
    (g : Group Connection BoundUnit) (ran : List (Placed BoundUnit)),
    Run journaled? (start 1 .stumbling [.heeded] 2, .empty) (s, j) ∧ g.units.length = 3 ∧
      ran <+: g.units ∧ ran.map (·.position) = [0, 1] ∧
      (∀ u ∈ ran.dropLast, (o.assignment.work s.backend u).outcome ≠ .panic) ∧
      (s.world.recorders.events 0).filter (o.mine g) = ran.flatMap (o.told s.backend) := by
  have hseen : ∃ r ∈ stumble.foldlM journaled? (start 1 .stumbling [.heeded] 2, .empty),
      ∃ o ∈ r.2.calls[0]?, ∃ g ∈ o.groups[0]?, o.executor.bus.listeners = [1, 0] ∧
        g.units.length = 3 ∧ r.1.engine.hasReporter 0 = false ∧
        History.starts (History.trail 0 (History.ofCall 0 r.2.past)) = [0, 1] := by
    decide +kernel
  rcases hseen with ⟨⟨s, j⟩, hmoves, o, ho, g, hg, hbus, hthree, hquiet, hstarts⟩
  have hrun := Run.of_moves hmoves
  rcases (events_follow_group hrun ho hg (r := 0) (by decide) (by simp [hbus])
    (by simp [hbus])).2.2.1 hquiet with ⟨ran, hran, hpositions, hpanic, hevents⟩
  exact ⟨s, j, o, g, ran, hrun, hthree, hran, hpositions.symm.trans hstarts, hpanic, hevents⟩

end Session

end ScatterGather
