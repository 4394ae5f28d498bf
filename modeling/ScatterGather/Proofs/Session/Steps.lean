import ScatterGather.Proofs.Session.Tending
import ScatterGather.Proofs.Session.Units

/-!
# Steps — what a step of a session is to its engine and its world

The engine of a session takes calls, moves, and hands over answers, and between its moves the world
is tended.  Whatever else a step changes, no call can tell.

* `Session.open_ok`, `Session.open_error` : the two ways in which a call is opened;
* `Session.Turn` : the steps, by what they do to the engine;
* `Session.Turn.recorded` : the same step of the engine whose world is its history;
* `Session.Turn.brings` : nothing reaches the engine but the units of a new call.
-/

namespace ScatterGather

theorem Call.all_new {κ α : Type} {P : κ → Prop} {policy : Policy} {queryId : Nat}
    {batches : List (Batch κ α)} (h : ∀ b ∈ batches, ∀ u ∈ b.units, u.All P) :
    (Call.new policy queryId batches).All P := by
  by_cases hzero : (batches.flatMap (·.units)).length = 0
  · simp [Call.All, Call.new, hzero]
  · intro b hb u hu
    simp only [Call.new, hzero, if_false, Phase.left_submitting] at hb
    rcases List.mem_map.mp hb with ⟨⟨b', i⟩, hmem, rfl⟩
    exact h b' (List.mem_of_getElem? (List.mem_zipIdx_iff_getElem?.mp hmem)) u hu

namespace Session

variable {β : Type} {s s' : Session β}

/-! ## Opening a call -/

/-- What the units of a call have in common. -/
def assignment (s : Session β) (x : Nat) (e : Executor) (kind : EntryPoint) : Assignment :=
  { kind
    sqlType := e.sqlType
    queryId := (s.ambient.snapshot (s.snapshots + 1)).queryId
    bus := e.bus
    registry := x }

/-- The policy that the context asks for. -/
def policy (s : Session β) : Policy :=
  if s.ambient.rethrow then .failFast else .bestEffort

/-- The route of the executor has these groups. -/
abbrev Grouped (s : Session β) (e : Executor) (groups : List (Group Connection BoundUnit))
    (w : World) : Prop :=
  (Grouping.group (World.binder s.backend e.options) e.cap e.route).run s.world = (.ok groups, w)

/-- Every connection and every statement that a call of the executor asks for is granted. -/
def Granted (s : Session β) (e : Executor) : Prop :=
  Grouping.Granted s.backend e.options (Grouping.plans e.cap e.route) s.world

theorem Granted.exists_groups {e : Executor} (h : s.Granted e) : ∃ groups w, s.Grouped e groups w :=
  Grouping.exists_buildAll_iff.mpr h

theorem open_error (x : Nat) {e : Executor} (kind : EntryPoint) {refusal : Error} {w : World}
    (h : (Grouping.group (World.binder s.backend e.options) e.cap e.route).run s.world =
      (.error refusal, w)) :
    s.open x e kind = (.error refusal,
      { s with
        snapshots := s.snapshots + 1
        engine := s.engine.withWorld (countExecution kind false w) }) := by
  have hgroup : (Grouping.group (World.binder s.backend e.options) e.cap e.route).run
      ({ s with snapshots := s.snapshots + 1 } : Session β).world = (.error refusal, w) := h
  simp only [Session.open, hgroup]
  rfl

theorem open_ok (x : Nat) {e : Executor} (kind : EntryPoint)
    {groups : List (Group Connection BoundUnit)} {w : World} (h : s.Grouped e groups w) :
    s.open x e kind = (.ok s.engine.calls.length,
      { s with
        snapshots := s.snapshots + 1
        engine := (s.engine.withWorld (countGroups groups w)).start
          (.new s.policy (s.snapshots + 1)
            (groups.map (batchOf s.backend (s.assignment x e kind))))
        issued := s.issued ++ [{ executor := x, kind, queryId := s.snapshots + 1 }] }) := by
  have hgroup : (Grouping.group (World.binder s.backend e.options) e.cap e.route).run
      ({ s with snapshots := s.snapshots + 1 } : Session β).world = (.ok groups, w) := h
  simp only [Session.open, hgroup]
  rfl

theorem countExecution_grown (kind : EntryPoint) (success : Bool) (w : World) :
    w.Grown (countExecution kind success w) :=
  ⟨rfl, Nat.le_refl _⟩

theorem countGroups_grown (groups : List (Group Connection BoundUnit)) (w : World) :
    w.Grown (countGroups groups w) ∧ (countGroups groups w).prepared = w.prepared := by
  have hcount (w : World) (mode : Mode) (n : Nat) :
      w.Grown (if n = 0 then w else w.count (.groups mode) n) ∧
        (if n = 0 then w else w.count (.groups mode) n).prepared = w.prepared := by
    by_cases hn : n = 0
    · simp only [hn, if_true]
      exact ⟨.refl w, trivial⟩
    · simp only [hn, if_false]
      exact ⟨⟨rfl, Nat.le_refl _⟩, rfl⟩
  simp only [countGroups, List.foldl_cons, List.foldl_nil]
  rcases hcount w .stream (groups.countP fun g => g.mode == .stream) with ⟨hstream, hstream'⟩
  rcases hcount _ .memory (groups.countP fun g => g.mode == .memory) with ⟨hmemory, hmemory'⟩
  exact ⟨hstream.trans hmemory, hmemory'.trans hstream'⟩

/-! ## Steps -/

/-- Whether a step may close something. -/
def Step.isSweep : Step β → Bool
  | .sweep _ => true
  | _ => false

/-- A step by what it does to the engine, and between its moves to the world. -/
inductive Turn (s s' : Session β) : Step β → Prop
  | accept {x : Nat} {kind : EntryPoint} {w : World} {policy : Policy} {queryId : Nat}
      {batches : List (Batch Effect Output)} {i : Issued} (grown : s.world.Grown w)
      (below : ∀ b ∈ batches, ∀ u ∈ b.units, u.All (Effect.Below w.prepared))
      (fresh : ∀ id < s.world.prepared, ∀ b ∈ batches, ∀ u ∈ b.units,
        u.All fun x => x.touches id = false)
      (engine : s'.engine = (s.engine.withWorld w).start (.new policy queryId batches))
      (issued : s'.issued = s.issued ++ [i]) :
      Turn s s' (.begin x kind)
  | move {m : Move} (engine : s.engine.step? noteWorld m = some s'.engine)
      (issued : s'.issued = s.issued) :
      Turn s s' (.engine m)
  | collect {n : Nat} {answer : Answer Output} {e : Engine Effect Output World} {w : World}
      (collect : s.engine.collect n = some (answer, e)) (grown : s.world.Grown w)
      (engine : s'.engine = e.withWorld w) (issued : s'.issued = s.issued) :
      Turn s s' (.conclude n)
  | tend {m : Step β} {w : World} (tended : s.world.Tended m.isSweep w)
      (engine : s'.engine = s.engine.withWorld w) (issued : s'.issued = s.issued) :
      Turn s s' m

/-- The statements of the units of a new call are those that were prepared for it. -/
theorem turn_of_open {x : Nat} {e : Executor} {kind : EntryPoint} :
    s.Turn (s.open x e kind).2 (.begin x kind) := by
  have hgrown := Grouping.group_grown s.backend e.options e.cap e.route s.world
  rcases hg : (Grouping.group (World.binder s.backend e.options) e.cap e.route).run s.world with
    ⟨result, w⟩
  rw [hg] at hgrown
  cases result with
  | error refusal =>
      rw [open_error x kind hg]
      exact .tend (hgrown.trans (countExecution_grown kind false w)).tended rfl rfl
  | ok groups =>
      rcases countGroups_grown groups w with ⟨hcounted, hprepared⟩
      have hid : ∀ g ∈ groups, ∀ u ∈ g.units, s.world.prepared ≤ u.unit.statement.id ∧
          u.unit.statement.id < (countGroups groups w).prepared := by
        intro g hgmem u hu
        rw [hprepared]
        exact Grouping.group_id_bounds hg hgmem hu
      have hwork : ∀ b ∈ groups.map (batchOf s.backend (s.assignment x e kind)),
          ∀ u ∈ b.units, ∃ p, u = (s.assignment x e kind).work s.backend p ∧
            s.world.prepared ≤ p.unit.statement.id ∧
            p.unit.statement.id < (countGroups groups w).prepared := by
        intro b hb u hu
        rcases List.mem_map.mp hb with ⟨g, hgmem, rfl⟩
        rcases List.mem_map.mp hu with ⟨p, hp, rfl⟩
        exact ⟨p, rfl, hid g hgmem p hp⟩
      rw [open_ok x kind hg]
      refine .accept (hgrown.trans hcounted) ?_ ?_ rfl rfl
      · intro b hb u hu
        rcases hwork b hb u hu with ⟨p, rfl, -, hlt⟩
        exact Assignment.work_below hlt
      · intro id hlt b hb u hu x hx
        rcases hwork b hb u hu with ⟨p, rfl, hle, -⟩
        exact Assignment.touches_of_ne hx (by omega)

theorem turn_of_sweep {i : Nat} (h : s.sweepStep? i = some s') : s.Turn s' (.sweep i) := by
  simp only [sweepStep?, Option.bind_eq_bind, Option.bind_eq_some_iff, Option.some.injEq,
    Prod.exists] at h
  rcases h with ⟨x, sweep, hsweep, sweep', r, attempted, hstep, rfl⟩
  -- the registry gives up a handle, which is then closed
  have hregistry : s.world.Grown { s.world with registries := s.world.registries.set x r } :=
    ⟨rfl, Nat.le_refl _⟩
  cases attempted with
  | none => exact .tend hregistry.tended rfl rfl
  | some handle => exact .tend (hregistry.tended.trans (World.close_tended _ handle)) rfl rfl

theorem step?_turn {m : Step β} (h : s.step? m = some s') : s.Turn s' m := by
  have hnothing : s.world.Tended m.isSweep s.world := .refl s.world
  cases m with
  | begin x kind =>
      rcases Option.bind_eq_some_iff.mp h with ⟨e, -, hopen⟩
      cases hopen
      exact turn_of_open
  | engine m =>
      rcases Option.map_eq_some_iff.mp h with ⟨e', hstep, rfl⟩
      exact .move hstep rfl
  | conclude n =>
      rcases Option.map_eq_some_iff.mp h with ⟨⟨response, s₁⟩, hconclude, rfl⟩
      simp only [conclude, Option.bind_eq_bind, Option.bind_eq_some_iff, Option.some.injEq,
        Prod.exists, Prod.mk.injEq] at hconclude
      rcases hconclude with ⟨issued, -, answer, e, hcollect, -, rfl⟩
      rcases Engine.collect_eq_some hcollect with ⟨c, -, -, rfl⟩
      exact .collect hcollect (countExecution_grown _ _ s.world) rfl rfl
  | insert key value | remove key | clear | setRethrow value | beginSweep x =>
      cases h
      exact .tend hnothing rfl rfl
  | sweep i => exact turn_of_sweep h

namespace Turn

variable {m : Step β} {P : Nat → Effect → Prop}

/-- Nothing new reaches the engine but the units of a call that begins. -/
theorem brings (h : s.Turn s' m) (hbrings : s.engine.Brings P)
    (hnew : ∀ c : Call Effect Output, c.All (Effect.Below s'.world.prepared) →
      (∀ id < s.world.prepared, c.All fun x => x.touches id = false) →
      c.All (P s.engine.calls.length)) : s'.engine.Brings P := by
  cases h with
  | @accept x kind w policy queryId batches i grown below fresh engine issued =>
      have hworld : s'.world = w := congrArg Engine.world engine
      have hsame : (s.engine.withWorld w).Brings P := ⟨hbrings.calls, hbrings.jobs⟩
      rw [engine]
      refine hsame.start (hnew _ ?_ ?_)
      · rw [hworld]
        exact Call.all_new below
      · exact fun id hlt => Call.all_new (fresh id hlt)
  | move engine issued => exact (hbrings.step engine).1
  | @collect n answer e w collect grown engine issued =>
      rcases Engine.collect_eq_some collect with ⟨c, hc, hp, rfl⟩
      rw [engine]
      refine ⟨?_, hbrings.jobs⟩
      intro k c' hc'
      by_cases hnk : n = k
      · subst hnk
        have hlt : n < s.engine.calls.length := (List.getElem?_eq_some_iff.mp hc).1
        simp only [Engine.withWorld_calls, Engine.setCall, List.getElem?_set_self hlt,
          Option.some.injEq] at hc'
        subst hc'
        simp [Call.All]
      · simp only [Engine.withWorld_calls, Engine.setCall, List.getElem?_set_ne hnk] at hc'
        exact hbrings.calls k c' hc'
  | tend tended engine issued =>
      rw [engine]
      exact ⟨hbrings.calls, hbrings.jobs⟩

/-- The engine whose world is its history makes the same step, and the world of the session is that
of the occurrences, tended. -/
theorem recorded (h : s.Turn s' m) (hbrings : s.engine.Brings P) :
    ∃ os, (History.replay noteWorld os s.world).Tended m.isSweep s'.world ∧
      (∀ o ∈ os, ∀ x, o.effect? = some x → P o.site.call x) ∧
      ∀ past, Run (Engine.act? History.note) (s.engine.withWorld past)
        (s'.engine.withWorld (past ++ os)) := by
  have hnone : ∀ o ∈ ([] : History Effect Output), ∀ x, o.effect? = some x → P o.site.call x := by
    simp
  cases h with
  | @accept x kind w policy queryId batches i grown below fresh engine issued =>
      have hworld : s'.world = w := congrArg Engine.world engine
      refine ⟨[], hworld ▸ grown.tended, hnone, fun past => ?_⟩
      have hbegin : (s.engine.withWorld past).act? History.note (.begin policy queryId batches) =
          some (s'.engine.withWorld past) := by
        rw [engine]
        rfl
      rw [List.append_nil]
      exact .single hbegin
  | @move m engine issued =>
      rcases Engine.step?_withWorld engine with ⟨os, hworld, hstep⟩
      refine ⟨os, ?_, ?_, fun past => ?_⟩
      · have hsame : s'.world = History.replay noteWorld os s.world := hworld
        exact hsame ▸ .refl _
      · -- the recorded step shows the same occurrences
        have hsame : (s.engine.withWorld ([] : History Effect Output)).Brings P :=
          ⟨hbrings.calls, hbrings.jobs⟩
        rcases hsame.step (hstep []) with ⟨-, os', hworld', hos⟩
        have heq : os = os' := by
          simpa [History.replay_note] using hworld'
        exact heq ▸ hos
      · exact .single (m := .move m) (hstep past)
  | @collect n answer e w collect grown engine issued =>
      rcases Engine.collect_eq_some collect with ⟨c, hc, hp, rfl⟩
      have hworld : s'.world = w := congrArg Engine.world engine
      refine ⟨[], hworld ▸ grown.tended, hnone, fun past => ?_⟩
      have hcollect : (s.engine.withWorld past).act? History.note (.collect n) =
          some (s'.engine.withWorld past) := by
        have hcall : (s.engine.withWorld past).calls[n]? = some c := hc
        rw [Engine.act?, Engine.collect_of_returned hcall hp, engine]
        rfl
      rw [List.append_nil]
      exact .single hcollect
  | @tend m w tended engine issued =>
      have hworld : s'.world = w := congrArg Engine.world engine
      refine ⟨[], hworld ▸ tended, hnone, fun past => ?_⟩
      rw [engine, List.append_nil]
      exact .refl

end Turn

end Session

end ScatterGather
