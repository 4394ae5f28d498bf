import ScatterGather.Proofs.Session.Tracking

/-!
# Metering — what the metrics of a session have gained

A unit counts itself when its call has come back, the opening of a call counts its groups, and a
call that is answered counts once, with a sample of its duration.  Nothing is ever taken off, so a
series is at the number of times that it was named.

* `Metrics.Gains` : what some metrics have gained on others;
* `World.performAll_gains` : the effects of units gain the series that they name;
* `Session.countExecution_gains`, `Session.countGroups_gains` : so do the two ends of a call;
* `Opened.returns` : what units return, a value or a failure;
* `Journal.added` : what one call has added to a series;
* `Journal.Tells.added_of_quiet` : it is what its units have returned;
* `Journal.Tells.count_series`, `Journal.Tells.sum_added` : what all calls have added.
-/

namespace ScatterGather

/-! ## Series -/

namespace Metrics

/-- The value of a series, and nothing if it was never recorded. -/
def reading (m : Metrics) (t : Series) : Nat :=
  (m.value? t).getD 0

theorem reading_add (m : Metrics) (s t : Series) (n : Nat) :
    (m.add s n).reading t = m.reading t + if t = s then n else 0 := by
  by_cases h : t = s
  · simp [reading, add, h]
  · simp [reading, add, h]

/-- Every series has gained on `m` as often as it is in the list. -/
def Gains (m m' : Metrics) (ts : List Series) : Prop :=
  ∀ t, m'.reading t = m.reading t + ts.count t

namespace Gains

variable {m m₁ m₂ : Metrics} {ts ts' : List Series}

theorem refl (m : Metrics) : m.Gains m [] := by
  simp [Gains]

theorem trans (h : m.Gains m₁ ts) (h' : m₁.Gains m₂ ts') : m.Gains m₂ (ts ++ ts') := by
  intro t
  rw [h' t, h t, List.count_append, Nat.add_assoc]

theorem perm (h : m.Gains m₁ ts) (hperm : ts.Perm ts') : m.Gains m₁ ts' :=
  fun t => hperm.count_eq t ▸ h t

theorem add (m : Metrics) (s : Series) (n : Nat) : m.Gains (m.add s n) (List.replicate n s) := by
  intro t
  rw [reading_add, List.count_replicate]
  by_cases h : t = s
  · simp [h]
  · simp [h, Ne.symm h]

end Gains

end Metrics

/-- The series that an effect counts for. -/
def Effect.series? : Effect → Option Series
  | countUnit kind success => some (.units kind success)
  | _ => none

namespace World

theorem perform_gains (w : World) (e : Effect) :
    w.metrics.Gains (w.perform e).metrics e.series?.toList := by
  cases e with
  | countUnit kind success => exact .add w.metrics (.units kind success) 1
  | readCursor handle =>
      have hsame : (w.perform (.readCursor handle)).metrics = w.metrics := by
        cases hc : w.cursor? handle <;> simp [perform, hc, setCursor]
      rw [hsame]
      exact .refl w.metrics
  | announce | beginCall | endCall | openCursor | trackStatement | trackCursor =>
      exact .refl w.metrics

theorem performAll_gains (w : World) (es : List Effect) :
    w.metrics.Gains (es.foldl perform w).metrics (es.filterMap Effect.series?) := by
  induction es generalizing w with
  | nil => exact .refl w.metrics
  | cons e es ih =>
      have hgains := (w.perform_gains e).trans (ih (w.perform e))
      cases hs : e.series? <;> simpa [hs] using hgains

end World

namespace Session

theorem countExecution_gains (kind : EntryPoint) (success : Bool) (w : World) :
    w.metrics.Gains (countExecution kind success w).metrics
      [.executions kind success, .durations kind] :=
  (Metrics.Gains.add w.metrics (.executions kind success) 1).trans
    (.add _ (.durations kind) 1)

theorem countGroups_gains (groups : List (Group Connection BoundUnit)) (w : World) :
    w.metrics.Gains (countGroups groups w).metrics (groups.map fun g => .groups g.mode) := by
  have hcount (w : World) (mode : Mode) (n : Nat) : w.metrics.Gains
      (if n = 0 then w else w.count (.groups mode) n).metrics
      (List.replicate n (.groups mode)) := by
    by_cases hn : n = 0
    · simpa [hn] using Metrics.Gains.refl w.metrics
    · rw [if_neg hn]
      exact .add w.metrics (.groups mode) n
  simp only [countGroups, List.foldl_cons, List.foldl_nil]
  refine ((hcount w .stream _).trans (hcount _ .memory _)).perm ?_
  -- the groups stream or they do not
  induction groups with
  | nil => rfl
  | cons g groups ih =>
      cases hm : g.mode with
      | stream => simpa [hm, List.replicate_succ] using ih.cons (Series.groups .stream)
      | memory =>
          simp only [List.countP_cons, hm, List.map_cons, reduceCtorEq, beq_iff_eq, if_false,
            if_true, Nat.add_zero, List.replicate_succ]
          exact List.perm_middle.trans (ih.cons _)

end Session

/-! ## Units -/

/-- Whether the call of a unit has returned a value or a failure, unless it has panicked. -/
def Outcome.returned? {α : Type} : Outcome α → Option Bool
  | value _ => some true
  | failure _ => some false
  | panic => none

namespace Assignment

variable {b : Backend} {a : Assignment} {u : Placed BoundUnit}

theorem series_announce (kind : EventKind) :
    (a.announce u kind).filterMap Effect.series? = [] := by
  apply List.filterMap_eq_nil_iff.mpr
  intro e he
  rcases List.mem_map.mp he with ⟨recorder, -, rfl⟩
  rfl

theorem series_afterCall : (a.afterCall b u).1.filterMap Effect.series? = [] := by
  rcases afterCall_cases b a u with ⟨-, cursor, n, -, hafter⟩ | ⟨-, hafter⟩
  · simp [hafter, List.filterMap_cons, Effect.series?]
  · rw [hafter]
    rfl

/-- A unit counts itself once, unless it panics. -/
theorem series_work : (a.work b u).effects.filterMap Effect.series? =
    ((a.work b u).outcome.returned?.map (Series.units a.kind)).toList := by
  have hconclude (outcome : Outcome Output) :
      (a.conclude u outcome).filterMap Effect.series? =
        (outcome.returned?.map (Series.units a.kind)).toList := by
    cases outcome with
    | value | failure =>
        simp [conclude, Effect.series?, series_announce, Outcome.returned?]
    | panic => rfl
  simp only [work, List.filterMap_append, series_announce, List.nil_append,
    List.filterMap_cons, Effect.series?, series_afterCall, hconclude]

end Assignment

/-! ## Calls -/

namespace Opened

variable {o : Opened} {b : Backend} {k : Nat} {past : History Effect Output}
  {us : List (Placed BoundUnit)}

/-- What the calls of units return, of those that do not panic. -/
def returns (o : Opened) (b : Backend) (us : List (Placed BoundUnit)) : List Bool :=
  us.filterMap fun u => (o.assignment.work b u).outcome.returned?

theorem series_units : (us.flatMap fun u => (o.assignment.work b u).effects).filterMap
    Effect.series? = (o.returns b us).map (.units o.assignment.kind) := by
  rw [List.filterMap_flatMap, returns, List.map_filterMap]
  induction us with
  | nil => rfl
  | cons u us ih =>
      rw [List.flatMap_cons, List.filterMap_cons, ih, Assignment.series_work]
      cases (o.assignment.work b u).outcome.returned? <;> rfl

/-- Units that do not panic return, and as many of them return a failure as fail. -/
theorem returns_of_calm (calm : ∀ u ∈ us.map (o.assignment.work b), ¬ u.Panics) :
    (o.returns b us).length = us.length ∧
      (o.returns b us).count false = (us.map (o.assignment.work b)).countP fun u => u.Fails := by
  induction us with
  | nil => exact ⟨rfl, rfl⟩
  | cons u us ih =>
      rw [List.map_cons, List.forall_mem_cons] at calm
      rcases ih calm.2 with ⟨hlength, hcount⟩
      rw [List.map_cons, List.countP_cons, List.length_cons, ← hlength, ← hcount]
      rcases (o.assignment.work b u).outcome_cases with hsucceeds | hfails | hpanics
      · have hnot : ¬ (o.assignment.work b u).Fails := fun hf => hf.not_succeeds hsucceeds
        rcases hsucceeds with ⟨v, hv⟩
        have hreturns : o.returns b (u :: us) = true :: o.returns b us :=
          List.filterMap_cons_some (by rw [hv]; rfl)
        simp [hreturns, hnot]
      · have hreturns : o.returns b (u :: us) = false :: o.returns b us := by
          rcases hfails with ⟨e, he⟩
          exact List.filterMap_cons_some (by rw [he]; rfl)
        simp [hreturns, hfails]
      · exact absurd hpanics calm.1

/-- All units of a call have started. -/
def Exhausted (o : Opened) (k : Nat) (past : History Effect Output) : Prop :=
  ∀ g i, o.groups[i]? = some g → ∀ u ∈ g.units,
    u.position ∈ History.starts (History.trail i (History.ofCall k past))

theorem Exhausted.append (h : o.Exhausted k past) (more : History Effect Output) :
    o.Exhausted k (past ++ more) := by
  intro g i hg u hu
  rw [History.ofCall_append, History.trail_append, History.starts_append]
  exact List.mem_append_left _ (h g i hg u hu)

theorem Exhausted.ran_eq (h : o.Exhausted k past) : o.ran k past = o.units := by
  have hgroup : ∀ p ∈ o.groups.zipIdx, (p.1.units.filter fun u =>
      u.position ∈ History.starts (History.trail p.2 (History.ofCall k past))) = p.1.units := by
    intro p hp
    exact List.filter_eq_self.mpr fun u hu =>
      decide_eq_true (h p.1 p.2 (List.mem_zipIdx_iff_getElem?.mp hp) u hu)
  rw [ran, units]
  conv_rhs => rw [← List.zipIdx_map_fst 0 o.groups, List.flatMap_map]
  exact List.flatMap_congr hgroup

end Opened

namespace Journal

/-- What the units of call number `k` have added to a series. -/
def added (j : Journal) (k : Nat) (t : Series) : Nat :=
  ((History.effects (History.ofCall k j.past)).filterMap Effect.series?).count t

/-- What the calls of all units of a kind have returned. -/
def returns (j : Journal) (b : Backend) (kind : EntryPoint) : List Bool :=
  j.calls.zipIdx.flatMap fun (o, k) =>
    if o.assignment.kind = kind then o.returns b (o.ran k j.past) else []

namespace Tells

variable {β : Type} {s : Session β} {j : Journal} {threads k : Nat} {o : Opened}

/-- A call without jobs has counted what its units have returned. -/
theorem added_of_quiet (h : j.Tells threads s) (ho : j.calls[k]? = some o)
    (hquiet : s.engine.hasReporter k = false) (kind : EntryPoint) (success : Bool) :
    j.added k (.units kind success) = if o.assignment.kind = kind then
      (o.returns s.backend (o.ran k j.past)).count success else 0 := by
  have hperm := (h.effects_of_quiet ho hquiet).filterMap Effect.series?
  rw [Opened.series_units] at hperm
  rw [added, hperm.count_eq]
  by_cases hk : o.assignment.kind = kind
  · subst hk
    rw [if_pos rfl]
    refine List.count_map_of_injective _ _ ?_ success
    rintro x y hxy
    exact (Series.units.inj hxy).2
  · rw [if_neg hk, List.count_eq_zero]
    intro hmem
    rcases List.mem_map.mp hmem with ⟨x, -, hx⟩
    exact hk (Series.units.inj hx).1

/-- Whatever units have counted was added by the calls. -/
theorem count_series (h : j.Tells threads s) (t : Series) :
    ((History.effects j.past).filterMap Effect.series?).count t =
      (j.calls.zipIdx.map fun p => j.added p.2 t).sum := by
  rw [(h.effects_parts.filterMap Effect.series?).count_eq t, List.filterMap_flatMap,
    List.count_flatMap]
  rfl

/-- If no job is left it is what the units of all calls have returned. -/
theorem sum_added (h : j.Tells threads s) (hquiet : s.engine.jobs = []) (kind : EntryPoint)
    (success : Bool) : (j.calls.zipIdx.map fun p => j.added p.2 (.units kind success)).sum =
      (j.returns s.backend kind).count success := by
  rw [returns, List.count_flatMap]
  refine congrArg List.sum (List.map_congr_left ?_)
  -- call by call, and one of another kind adds nothing
  rintro ⟨o, k⟩ hp
  have ho : j.calls[k]? = some o := List.mem_zipIdx_iff_getElem?.mp hp
  have hnone : s.engine.hasReporter k = false := by
    simp [Engine.hasReporter, hquiet]
  rw [h.added_of_quiet ho hnone]
  by_cases hk : o.assignment.kind = kind <;> simp [hk]

end Tells

end Journal

end ScatterGather
