import ScatterGather.Proofs.Registry.Cleanup
import ScatterGather.Proofs.Session.Refusing
import ScatterGather.Proofs.Session.Tracking

/-!
# Sweeping — what the sweeps of a session close

Seen from one registry, units register what they open and sweeps close it, and nothing else in a
session makes a difference.  So the session goes through the moves of a cleanup, whatever the other
registries do at the same time, and what holds of every cleanup holds of it.

* `Effect.registers?` : what an effect registers at one registry;
* `Session.sweepsOf` : the sweeps of one registry;
* `Session.Cleans` : a cleanup that a session has gone through;
* `Session.Cleans.step` : a step of the session is some moves of the cleanup;
* `Session.exists_cleanup`, `Session.statements_closed` : no handle of a session is lost, and its
  statements are closed.
-/

namespace ScatterGather

/-! ## Effects -/

namespace Effect

def registers? (x : Nat) : Effect → Option (Resource Statement CursorHandle)
  | trackStatement registry _ s => if registry = x then some (.statement s) else none
  | trackCursor registry _ handle => if registry = x then some (.cursor handle) else none
  | _ => none

end Effect

namespace World

variable {w : World} {x : Nat} {c : Cleanup Statement CursorHandle}

theorem perform_log (w : World) (e : Effect) : w.log <+: (w.perform e).log := by
  cases e with
  | endCall => exact List.prefix_append ..
  | readCursor handle => cases hc : w.cursor? handle <;> simp [perform, hc, setCursor]
  | announce | beginCall | openCursor | trackStatement | trackCursor | countUnit =>
      exact List.prefix_rfl

theorem performAll_log (w : World) (es : List Effect) : w.log <+: (es.foldl perform w).log := by
  induction es generalizing w with
  | nil => exact List.prefix_rfl
  | cons e es ih => exact (perform_log w e).trans (ih _)

/-- An effect registers one handle, or none. -/
theorem perform_cleanup (h : w.registries[x]? = some c.registry) (e : Effect) :
    ∃ c', Run Cleanup.step? c c' ∧ (w.perform e).registries[x]? = some c'.registry ∧
      c'.sweeps = c.sweeps ∧ c'.attempted = c.attempted ∧
      c'.registered = c.registered ++ (e.registers? x).toList := by
  have hperform := perform_registry h e
  have hnothing (hs : e.statement? x = none) (hc : e.cursor? x = none)
      (hr : e.registers? x = none) : ∃ c', Run Cleanup.step? c c' ∧
        (w.perform e).registries[x]? = some c'.registry ∧ c'.sweeps = c.sweeps ∧
        c'.attempted = c.attempted ∧ c'.registered = c.registered ++ (e.registers? x).toList :=
    ⟨c, .refl, by simpa [hs, hc] using hperform, rfl, rfl, by simp [hr]⟩
  cases e with
  | trackStatement registry position s =>
      by_cases hx : registry = x
      · refine ⟨_, .single (m := .trackStatement position s) rfl, ?_, rfl, rfl, ?_⟩
        · simpa [Effect.statement?, Effect.cursor?, hx, Registry.trackStatement] using hperform
        · simp [Effect.registers?, hx]
      · exact hnothing (if_neg hx) rfl (if_neg hx)
  | trackCursor registry position handle =>
      by_cases hx : registry = x
      · refine ⟨_, .single (m := .trackCursor position handle) rfl, ?_, rfl, rfl, ?_⟩
        · simpa [Effect.statement?, Effect.cursor?, hx, Registry.trackCursor] using hperform
        · simp [Effect.registers?, hx]
      · exact hnothing rfl (if_neg hx) (if_neg hx)
  | announce | beginCall | endCall | openCursor | readCursor | countUnit =>
      exact hnothing rfl rfl rfl

theorem performAll_cleanup (h : w.registries[x]? = some c.registry) (es : List Effect) :
    ∃ c', Run Cleanup.step? c c' ∧ (es.foldl perform w).registries[x]? = some c'.registry ∧
      c'.sweeps = c.sweeps ∧ c'.attempted = c.attempted ∧
      c'.registered = c.registered ++ es.filterMap (Effect.registers? x) := by
  induction es generalizing w c with
  | nil => exact ⟨c, .refl, h, rfl, rfl, by simp⟩
  | cons e es ih =>
      rcases perform_cleanup h e with ⟨c₁, hrun₁, hregistry₁, hsweeps₁, hattempted₁, hregistered₁⟩
      rcases ih hregistry₁ with ⟨c₂, hrun₂, hregistry₂, hsweeps₂, hattempted₂, hregistered₂⟩
      refine ⟨c₂, hrun₁.trans hrun₂, hregistry₂, hsweeps₂.trans hsweeps₁,
        hattempted₂.trans hattempted₁, ?_⟩
      rw [hregistered₂, hregistered₁, List.append_assoc]
      cases hr : e.registers? x <;> simp [hr]

/-- The request that closes a handle; closing a cursor makes none. -/
def closing? : Resource Statement CursorHandle → Option Request
  | .statement s => some (.closeStatement s)
  | .cursor _ => none

theorem closeAll_log (w : World) (rs : List (Resource Statement CursorHandle)) :
    (rs.foldl close w).log = w.log ++ rs.filterMap closing? := by
  induction rs generalizing w with
  | nil => simp
  | cons r rs ih =>
      rw [List.foldl_cons, ih]
      cases r with
      | statement s => simp [close, note, closing?]
      | cursor handle =>
          have hnone : closing? (.cursor handle) = none := rfl
          cases hc : w.cursor? handle <;> simp [close, hc, setCursor, hnone]

theorem closeAll_registries (w : World) (rs : List (Resource Statement CursorHandle)) :
    (rs.foldl close w).registries = w.registries := by
  induction rs generalizing w with
  | nil => rfl
  | cons r rs ih => rw [List.foldl_cons, ih, close_frame]

end World

/-! ## Sessions -/

namespace Session

variable {β : Type} {s s' s₁ s₂ : Session β} {j j' j₁ : Journal} {x : Nat} {m : Step β}
  {c : Cleanup Statement CursorHandle}

/-- The sweeps of registry `x` among those of all registries. -/
def ofRegistry (x : Nat) (p : Nat × Sweep Statement CursorHandle) :
    Option (Sweep Statement CursorHandle) :=
  if p.1 = x then some p.2 else none

def sweepsOf (s : Session β) (x : Nat) : List (Sweep Statement CursorHandle) :=
  s.sweeps.filterMap (ofRegistry x)

/-- What stands around sweep `i` among those of a registry, whatever becomes of the sweep itself. -/
theorem exists_around {ps : List (Nat × Sweep Statement CursorHandle)} {i : Nat}
    {p : Nat × Sweep Statement CursorHandle} (x : Nat) (h : ps[i]? = some p) :
    ∃ front back, ps.filterMap (ofRegistry x) = front ++ (ofRegistry x p).toList ++ back ∧
      ∀ p', (ps.set i p').filterMap (ofRegistry x) =
        front ++ (ofRegistry x p').toList ++ back := by
  rcases List.getElem?_eq_some_iff.mp h with ⟨hlt, hget⟩
  have hset (p' : Nat × Sweep Statement CursorHandle) : (ps.set i p').filterMap (ofRegistry x) =
      (ps.take i).filterMap (ofRegistry x) ++ (ofRegistry x p').toList ++
        (ps.drop (i + 1)).filterMap (ofRegistry x) := by
    rw [List.set_eq_take_append_cons_drop, if_pos hlt, List.filterMap_append, List.filterMap_cons]
    cases ofRegistry x p' <;> simp
  have hself : ps.set i p = ps := hget ▸ List.set_getElem_self hlt
  have hold := hset p
  rw [hself] at hold
  exact ⟨_, _, hold, hset⟩

theorem filterMap_set_of_other {ps : List (Nat × Sweep Statement CursorHandle)} {i y : Nat}
    {sweep sweep' : Sweep Statement CursorHandle} (h : ps[i]? = some (y, sweep)) (hy : y ≠ x) :
    (ps.set i (y, sweep')).filterMap (ofRegistry x) = ps.filterMap (ofRegistry x) := by
  rcases exists_around x h with ⟨front, back, hold, hnew⟩
  rw [hold, hnew, ofRegistry, ofRegistry, if_neg hy, if_neg hy]

/-- Among the sweeps of its registry a sweep has a number of its own. -/
theorem exists_number {ps : List (Nat × Sweep Statement CursorHandle)} {i : Nat}
    {sweep : Sweep Statement CursorHandle} (h : ps[i]? = some (x, sweep)) :
    ∃ k, (ps.filterMap (ofRegistry x))[k]? = some sweep ∧ ∀ sweep',
      (ps.set i (x, sweep')).filterMap (ofRegistry x) =
        (ps.filterMap (ofRegistry x)).set k sweep' := by
  rcases exists_around x h with ⟨front, back, hold, hnew⟩
  refine ⟨front.length, by simp [hold, ofRegistry], fun sweep' => ?_⟩
  rw [hold, hnew]
  simp [ofRegistry]

/-- The cleanup `c` is what has become of registry `x`, and its attempts are in the log. -/
structure Cleans (x : Nat) (s : Session β) (j : Journal) (c : Cleanup Statement CursorHandle) :
    Prop where
  registry : s.world.registries[x]? = some c.registry
  sweeps : c.sweeps = s.sweepsOf x
  registered : c.registered = (History.effects j.past).filterMap (Effect.registers? x)
  attempted : (c.attempted.filterMap World.closing?).Sublist s.world.log

/-- Nothing of this makes a difference to the registry. -/
theorem Cleans.idle (h : s.Cleans x j c) (hregistries : s'.world.registries = s.world.registries)
    (hsweeps : s'.sweeps = s.sweeps) (hpast : j'.past = j.past)
    (hlog : s.world.log <+: s'.world.log) : s'.Cleans x j' c where
  registry := hregistries ▸ h.registry
  sweeps := h.sweeps.trans (congrArg (List.filterMap (ofRegistry x)) hsweeps.symm)
  registered := hpast ▸ h.registered
  attempted := h.attempted.trans hlog.sublist

theorem Cleans.sweep {i : Nat} (h : s.Cleans x j c) (hstep : s.sweepStep? i = some s') :
    ∃ c', Run Cleanup.step? c c' ∧ s'.Cleans x j c' := by
  simp only [sweepStep?, Option.bind_eq_bind, Option.bind_eq_some_iff, Option.some.injEq,
    Prod.exists] at hstep
  rcases hstep with ⟨y, sweep, hsweep, sweep', r, attempt, hmove, rfl⟩
  have hlog : s.world.log.Sublist (attempt.toList.foldl World.close
      { s.world with registries := s.world.registries.set y r }).log := by
    rw [World.closeAll_log]
    exact List.sublist_append_left ..
  have hregistries := World.closeAll_registries
    { s.world with registries := s.world.registries.set y r } attempt.toList
  by_cases hy : y = x
  · -- the same sweep makes the same move in the cleanup
    subst hy
    have hregistry : s.registry y = c.registry := by
      rw [Session.registry, h.registry, Option.getD_some]
    rcases exists_number hsweep with ⟨k, hk, hset⟩
    have hmine : c.sweepStep? k s.backend.closeError? = some { c with
        registry := r
        sweeps := c.sweeps.set k sweep'
        attempted := c.attempted ++ attempt.toList } :=
      Cleanup.sweepStep?_eq_some.mpr
        ⟨sweep, sweep', r, attempt, h.sweeps ▸ hk, hregistry ▸ hmove, rfl⟩
    have hlt := (List.getElem?_eq_some_iff.mp h.registry).1
    refine ⟨_, .single (m := .sweep k s.backend.closeError?) hmine, ?_, ?_, h.registered, ?_⟩
    · exact (congrArg (fun rs : List Tracking => rs[y]?) hregistries).trans
        (List.getElem?_set_self hlt)
    · exact (congrArg (List.set · k sweep') h.sweeps).trans (hset sweep').symm
    · show ((c.attempted ++ attempt.toList).filterMap World.closing?).Sublist
        (attempt.toList.foldl World.close _).log
      rw [List.filterMap_append, World.closeAll_log]
      exact h.attempted.append (.refl _)
  · refine ⟨c, .refl, ?_, ?_, h.registered, h.attempted.trans hlog⟩
    · exact (congrArg (fun rs : List Tracking => rs[x]?) hregistries).trans
        ((List.getElem?_set_ne hy).trans h.registry)
    · exact h.sweeps.trans (filterMap_set_of_other hsweep hy).symm

theorem Cleans.step (h : s.Cleans x j c) (hstep : s.step? m = some s') :
    ∃ c', Run Cleanup.step? c c' ∧ s'.Cleans x (j.after s m) c' := by
  cases m with
  | begin y kind =>
      rcases begin_eq_some hstep with ⟨calls, issued, w, hw, hs'⟩
      have hregistries : s'.world.registries = s.world.registries :=
        hs' ▸ (congrArg World.registries hw :)
      have hsweeps : s'.sweeps = s.sweeps := hs' ▸ rfl
      rcases Option.bind_eq_some_iff.mp hstep with ⟨e, -, hopen⟩
      rcases open_of_refusal s y e kind with ⟨asked, hlog, -⟩
      rw [Option.some.inj hopen] at hlog
      exact ⟨c, .refl, h.idle hregistries hsweeps rfl (hlog ▸ List.prefix_append ..)⟩
  | engine m =>
      -- units register what they open, one handle with each effect
      rcases Option.map_eq_some_iff.mp hstep with ⟨e', hmove, rfl⟩
      have hworld := (shown_of_step hmove).1
      rw [replay_eq_foldl] at hworld
      rcases World.performAll_cleanup h.registry (History.effects (s.shown m)) with
        ⟨c', hrun, hregistry, hsweeps, hattempted, hregistered⟩
      refine ⟨c', hrun, ?_, hsweeps.trans h.sweeps, ?_, ?_⟩
      · exact (congrArg (fun w : World => w.registries[x]?) hworld).trans hregistry
      · rw [hregistered, h.registered]
        simp [Journal.after, History.effects]
      · have hlog := World.performAll_log s.world (History.effects (s.shown m))
        have hsame : e'.world.log = _ := congrArg World.log hworld
        rw [hattempted]
        exact hsame ▸ h.attempted.trans hlog.sublist
  | conclude n =>
      rcases Option.map_eq_some_iff.mp hstep with ⟨⟨r, s₁⟩, hconclude, rfl⟩
      rcases conclude_eq_some hconclude with ⟨i, call, answer, success, -, -, -, -, rfl⟩
      exact ⟨c, .refl, h.idle rfl rfl rfl List.prefix_rfl⟩
  | beginSweep y =>
      cases hstep
      by_cases hy : y = x
      · refine ⟨_, .single (m := .beginSweep) rfl, h.registry, ?_, h.registered, h.attempted⟩
        simp [sweepsOf, ofRegistry, hy, h.sweeps]
      · refine ⟨c, .refl, h.registry, ?_, h.registered, h.attempted⟩
        simp [sweepsOf, ofRegistry, hy, h.sweeps]
  | sweep i => exact h.sweep hstep
  | insert | remove | clear | setRethrow =>
      cases hstep
      exact ⟨c, .refl, h.idle rfl rfl rfl List.prefix_rfl⟩

theorem Cleans.run (h : s.Cleans x j c) (hrun : Run journaled? (s, j) (s', j')) :
    ∃ c', Run Cleanup.step? c c' ∧ s'.Cleans x j' c' := by
  refine Run.preserves (P := fun r : Session β × Journal =>
    ∃ c', Run Cleanup.step? c c' ∧ r.1.Cleans x r.2 c') ?_ hrun ⟨c, .refl, h⟩
  rintro ⟨s, j⟩ ⟨s', j'⟩ m ⟨c₁, hrun₁, h₁⟩ hstep
  rcases journaled?_eq_some.mp hstep with ⟨hm, rfl⟩
  rcases h₁.step hm with ⟨c₂, hrun₂, h₂⟩
  exact ⟨c₂, hrun₁.trans hrun₂, h₂⟩

variable {threads : Nat} {backend : Backend} {executors : List Executor} {recorders : Nat}

/-- A session goes through a cleanup of every registry.  So the handles that its units have
registered there are tracked, or in the hands of a sweep, or attempted. -/
theorem exists_cleanup (hx : x < executors.length)
    (hrun : Run journaled? (start threads backend executors recorders, .empty) (s, j)) :
    ∃ c, Run Cleanup.step? .empty c ∧ s.Cleans x j c ∧
      ((History.effects j.past).filterMap (Effect.registers? x)).Perm ((s.registry x).resources ++
        (s.sweepsOf x).flatMap Sweep.taken ++ c.attempted) := by
  have hstart : (start threads backend executors recorders : Session β).Cleans x .empty .empty :=
    ⟨List.getElem?_replicate_of_lt hx, rfl, rfl, .refl _⟩
  rcases hstart.run hrun with ⟨c, hcleanup, h⟩
  have hregistry : s.registry x = c.registry := by
    rw [Session.registry, h.registry, Option.getD_some]
  refine ⟨c, hcleanup, h, ?_⟩
  rw [hregistry, ← h.sweeps, ← h.registered]
  exact Cleanup.balanced_of_run hcleanup

/-- When all sweeps of a registry are over, and one of them was begun after the last handle was
registered there, a close of every statement among the handles is in the log. -/
theorem statements_closed (hx : x < executors.length)
    (hrun : Run journaled? (start threads backend executors recorders, .empty) (s₁, j₁))
    (hbegin : s₁.step? (.beginSweep x) = some s₂) (hlater : Run journaled? (s₂, j₁) (s, j))
    (hlast : (History.effects j.past).filterMap (Effect.registers? x) =
      (History.effects j₁.past).filterMap (Effect.registers? x))
    (hover : ∀ sweep ∈ s.sweepsOf x, sweep.answer?.isSome) :
    ∀ st, .statement st ∈ (History.effects j.past).filterMap (Effect.registers? x) →
      .closeStatement st ∈ s.world.log := by
  rcases exists_cleanup hx hrun with ⟨c₁, hcleanup, h₁, -⟩
  cases hbegin
  -- the sweep of the session is a sweep of the cleanup as well
  have h₂ : Session.Cleans x { s₁ with sweeps := s₁.sweeps ++ [(x, .fresh)] } j₁
      { c₁ with sweeps := c₁.sweeps ++ [.fresh] } :=
    ⟨h₁.registry, by simp [sweepsOf, ofRegistry, h₁.sweeps], h₁.registered, h₁.attempted⟩
  rcases h₂.run hlater with ⟨c, hrest, h⟩
  have hlast : c.registered = c₁.registered := by rw [h.registered, hlast, h₁.registered]
  have hperm := Cleanup.attempted_perm ((hcleanup.snoc (m := .beginSweep) rfl).trans hrest) rfl
    hrest hlast (h.sweeps ▸ hover)
  rw [h.registered] at hperm
  intro st hst
  exact h.attempted.subset (List.mem_filterMap.mpr ⟨_, hperm.symm.subset hst, rfl⟩)

end Session

end ScatterGather
