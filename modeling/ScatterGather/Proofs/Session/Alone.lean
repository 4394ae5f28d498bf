import ScatterGather.Proofs.Engine.Alone
import ScatterGather.Proofs.Session.Journal

/-!
# Alone — a call as if its session had no other

A call takes a snapshot of the ambient context and the groups of its route with it, and from then on
it has nothing in common with other calls but the workers.  So it does nothing that it could not do
on a pool of its own, whatever other calls do and whatever becomes of the ambient context.

* `Session.alone` : a session with a pool of its own, where it is;
* `Session.own?` : the steps of a session that opens no more calls and leaves the context alone;
* `Session.Sound.exists_own_run` : it makes every run that its engine can make;
* `Session.actor?`, `Session.step?_of_other` : whoever moves for another call leaves a call alone;
* `Session.calls_do_not_interfere` : what a call does among others it can do by itself.
-/

namespace ScatterGather

namespace Session

variable {β : Type} {s s' s₁ : Session β} {j j' : Journal} {m : Step β} {threads x k : Nat}
  {e : Executor} {kind : EntryPoint}

/-- The session with a new pool, which no call has used. -/
def alone (s : Session β) (threads : Nat) : Session β :=
  { s with engine := .new threads s.world, issued := [], sweeps := [] }

/-- Nothing but steps of the engine, and the client who takes an answer. -/
def own? (r : Session β × Journal) : Step β → Option (Session β × Journal)
  | .engine m => journaled? r (.engine m)
  | .conclude n => journaled? r (.conclude n)
  | _ => none

theorem Sound.alone (h : s.Sound) (threads : Nat) : (s.alone threads).Sound := by
  refine ⟨Engine.inService_new threads s.world, rfl, ⟨?_, ?_⟩, h.ordered⟩
  · intro k c hc
    cases hc
  · intro j hj
    have hnone : (Engine.new threads s.world : Engine Effect Output World).pool.jobs = 0 :=
      Pool.jobs_new threads
    have hjobs : j ∈ (Engine.new threads s.world : Engine Effect Output World).pool.jobs := hj
    simp [hnone] at hjobs

/-! ## Runs of the engine -/

theorem run_of_own (h : Run own? (s, j) (s', j')) : Run journaled? (s, j) (s', j') := by
  refine Relation.ReflTransGen.mono ?_ _ _ h
  rintro r r' ⟨m, hm⟩
  cases m with
  | engine | conclude => exact ⟨_, hm⟩
  | begin | insert | remove | clear | setRethrow | beginSweep | sweep => cases hm

/-- What the engine can do next its session can. -/
theorem Sound.exists_own_step {a : Action Effect Output}
    {e' : Engine Effect Output (History Effect Output)} (h : s.Sound)
    (ha : (s.engine.withWorld j.past).own? History.note a = some e') :
    ∃ m s' j', own? (s, j) m = some (s', j') ∧ s'.engine.withWorld j'.past = e' ∧
      s'.issued = s.issued := by
  cases a with
  | begin policy queryId batches => cases ha
  | move m =>
      rcases Engine.step?_of_recorded noteWorld ha with ⟨e₁, hstep⟩
      have hshown := (shown_of_step hstep).2 j.past
      have hmove : s.step? (.engine m) = some { s with engine := e₁ } := by
        rw [step?, hstep]
        rfl
      exact ⟨.engine m, _, _, journaled?_eq_some.mpr ⟨hmove, rfl⟩,
        Option.some.inj (hshown.symm.trans ha), rfl⟩
  | collect n =>
      rcases Option.map_eq_some_iff.mp ha with ⟨⟨answer, e₁⟩, hcollect, rfl⟩
      rcases Engine.collect_eq_some hcollect with ⟨c, hc, hp, rfl⟩
      have hlt : n < s.issued.length := h.issued ▸ (List.getElem?_eq_some_iff.mp hc).1
      rcases conclude_of_returned (List.getElem?_eq_getElem hlt) hc hp with ⟨success, hconclude⟩
      have hstep : s.step? (.conclude n) = _ := congrArg (Option.map Prod.snd) hconclude
      exact ⟨.conclude n, _, _, journaled?_eq_some.mpr ⟨hstep, rfl⟩, rfl, rfl⟩

theorem Sound.exists_own_run {e' : Engine Effect Output (History Effect Output)} (h : s.Sound)
    (hrun : Run (Engine.own? History.note) (s.engine.withWorld j.past) e') :
    ∃ s' j', Run own? (s, j) (s', j') ∧ s'.engine.withWorld j'.past = e' ∧
      s'.issued = s.issued := by
  induction hrun with
  | refl => exact ⟨s, j, .refl, rfl, rfl⟩
  | tail _ hstep ih =>
      rcases ih with ⟨s₁, j₁, hrun, rfl, hissued⟩
      rcases hstep with ⟨a, ha⟩
      have hsound := h.run (run_of_journaled (run_of_own hrun))
      rcases hsound.exists_own_step ha with ⟨m, s', j', hm, hsame, hissued'⟩
      exact ⟨s', j', hrun.snoc hm, hsame, hissued'.trans hissued⟩

/-- Calls keep their entry among those that were issued. -/
theorem issued_prefix (h : Run step? s s') : s.issued <+: s'.issued := by
  refine Run.preserves (P := fun s' => s.issued <+: s'.issued) ?_ h List.prefix_rfl
  intro s₁ s₂ m hs hstep
  cases step?_turn hstep with
  | accept grown below fresh engine issued => exact issued ▸ hs.trans (List.prefix_append ..)
  | move engine issued => exact issued ▸ hs
  | collect collect grown engine issued => exact issued ▸ hs
  | tend tended engine issued => exact issued ▸ hs

/-! ## Movers -/

/-- The call that a step is made for. -/
def actor? (s : Session β) : Step β → Option Nat
  | .engine m => s.engine.actor? m
  | .conclude n => some n
  | _ => none

/-- Nothing that is done for other calls, or for none, changes the record, the jobs or the history
of a call. -/
theorem step?_of_other {c : Call Effect Output} (hc : s.engine.calls[k]? = some c)
    (hm : s.actor? m ≠ some k) (hstep : s.step? m = some s') :
    s'.engine.calls[k]? = some c ∧ s'.engine.jobsOf k = s.engine.jobsOf k ∧
      History.ofCall k (j.after s m).past = History.ofCall k j.past := by
  have hlt : k < s.engine.calls.length := (List.getElem?_eq_some_iff.mp hc).1
  -- a step that leaves the engine as it is, apart from its world
  have hstay {w : World} (engine : s'.engine = s.engine.withWorld w) :
      s'.engine.calls[k]? = some c ∧ s'.engine.jobsOf k = s.engine.jobsOf k ∧
        History.ofCall k j.past = History.ofCall k j.past := by
    rw [engine]
    exact ⟨hc, rfl, rfl⟩
  cases m with
  | engine m =>
      rcases Option.map_eq_some_iff.mp hstep with ⟨e', hmove, rfl⟩
      have hshown := (shown_of_step hmove).2 j.past
      have hother : (s.engine.withWorld j.past).actor? m ≠ some k := hm
      have hshare := Engine.share?_of_other hother hshown
      have hbefore : (s.engine.withWorld j.past).share? k =
          some ⟨c, s.engine.jobsOf k, History.ofCall k j.past⟩ :=
        Engine.share?_eq_some.mpr ⟨hc, rfl, rfl⟩
      rcases Engine.share?_eq_some.mp (hshare.trans hbefore) with ⟨hcall, hjobs, hhistory⟩
      exact ⟨hcall, hjobs.symm, hhistory.symm⟩
  | begin x kind =>
      cases step?_turn hstep with
      | accept grown below fresh engine issued =>
          rw [engine]
          exact ⟨(List.getElem?_append_left hlt).trans hc, rfl, rfl⟩
      | tend tended engine issued => exact hstay engine
  | conclude n =>
      have hn : n ≠ k := fun heq => hm (congrArg some heq)
      cases step?_turn hstep with
      | collect collect grown engine issued =>
          rcases Engine.collect_eq_some collect with ⟨c', -, -, rfl⟩
          rw [engine]
          exact ⟨(List.getElem?_set_ne hn).trans hc, rfl, rfl⟩
      | tend tended engine issued => exact hstay engine
  | insert | remove | clear | setRethrow | beginSweep | sweep =>
      cases step?_turn hstep with
      | tend tended engine issued => exact hstay engine

/-! ## Calls among others -/

theorem issued_of_open {groups : List (Group Connection BoundUnit)} {w : World} (hsound : s.Sound)
    (hg : s.Grouped e groups w) (hrun : Run step? (s.open x e kind).2 s') :
    s'.issued[s.engine.calls.length]? =
      some { executor := x, kind, queryId := s.snapshots + 1 } := by
  rcases issued_prefix hrun with ⟨more, hmore⟩
  rw [open_ok x kind hg] at hmore
  rw [← hmore, ← hsound.issued]
  simp

/-- A call that is opened here is mirrored by the only call of a session with a pool of its own. -/
theorem exists_mirror {groups : List (Group Connection BoundUnit)} {w : World}
    (hsound : s.Sound) (hthreads : s.engine.pool.threads = max threads 1)
    (hg : s.Grouped e groups w)
    (hlater : Run journaled? ((s.open x e kind).2, .empty) (s', j')) :
    ∃ a' ja, Run own? (((s.alone threads).open x e kind).2, .empty) (a', ja) ∧
      (s'.engine.withWorld j'.past).Mirrors s.engine.calls.length (a'.engine.withWorld ja.past) ∧
      a'.issued = [{ executor := x, kind, queryId := s.snapshots + 1 }] := by
  have hg' : (s.alone threads).Grouped e groups w := hg
  have hsound' : ((s.alone threads).open x e kind).2.Sound :=
    (hsound.alone threads).turn turn_of_open
  have hrun := recorded_of_run hlater
  rw [open_ok x kind hg] at hrun
  have hstart := Engine.mirrors_start (e := s.engine.withWorld []) (hsound.service.withWorld [])
    hthreads (by simp) (.new s.policy (s.snapshots + 1)
      (groups.map (batchOf s.backend (s.assignment x e kind))))
  rcases hstart.run hrun with ⟨a, hown, hmirrors⟩
  have hissued : ((s.alone threads).open x e kind).2.issued =
      [{ executor := x, kind, queryId := s.snapshots + 1 }] := by
    rw [open_ok x kind hg']
    rfl
  have halone : Run (Engine.own? History.note)
      (((s.alone threads).open x e kind).2.engine.withWorld Journal.empty.past) a := by
    rw [open_ok x kind hg']
    exact hown
  rcases hsound'.exists_own_run halone with ⟨a', ja, hrun', rfl, hkept⟩
  exact ⟨a', ja, hrun', hmirrors, hkept.trans hissued⟩

/-- Both clients take the same response. -/
theorem conclude_of_mirrors {a' s₂ : Session β} {past past' : History Effect Output} {i : Issued}
    {r : Response} (h : (s'.engine.withWorld past).Mirrors k (a'.engine.withWorld past'))
    (hissued : s'.issued[k]? = some i) (hissued' : a'.issued = [i])
    (hconclude : s'.conclude k = some (r, s₂)) : ∃ a₂, a'.conclude 0 = some (r, a₂) := by
  rcases conclude_eq_some hconclude with ⟨i', c', answer, -, hi, hc', hp, rfl, -⟩
  rcases h.call with ⟨c, hc, hcalls⟩
  have hsame : c' = c := Option.some.inj (hc'.symm.trans hc)
  have hentry : i' = i := Option.some.inj (hi.symm.trans hissued)
  subst hsame hentry
  have hfirst : a'.issued[0]? = some i' := congrArg (·[0]?) hissued'
  have hzero : a'.engine.calls[0]? = some c' := congrArg (·[0]?) hcalls
  rcases conclude_of_returned hfirst hzero hp with ⟨success, hresponse⟩
  exact ⟨_, hresponse⟩

/-- Whoever else has called, a route is refused for its own reasons. -/
theorem refused_alone {refusal : Error} (hopen : s.open x e kind = (.error refusal, s₁)) :
    ∃ a₁, (s.alone threads).open x e kind = (.error refusal, a₁) := by
  rcases hg : (Grouping.group (World.binder s.backend e.options) e.cap e.route).run s.world with
    ⟨result, w⟩
  cases result with
  | error refusal' =>
      rw [open_error x kind hg] at hopen
      cases hopen
      exact ⟨_, open_error (s := s.alone threads) x kind hg⟩
  | ok groups =>
      rw [open_ok x kind hg] at hopen
      cases hopen

/-- A call that is granted is the next one, and has its groups. -/
theorem grouped_of_open (hopen : s.open x e kind = (.ok k, s₁)) :
    ∃ groups w, s.Grouped e groups w ∧ k = s.engine.calls.length ∧
      s₁ = (s.open x e kind).2 := by
  rcases hg : (Grouping.group (World.binder s.backend e.options) e.cap e.route).run s.world with
    ⟨result, w⟩
  cases result with
  | error refusal =>
      rw [open_error x kind hg] at hopen
      cases hopen
  | ok groups =>
      refine ⟨groups, w, hg, ?_, by rw [hopen]⟩
      rw [open_ok x kind hg] at hopen
      cases hopen
      rfl

/-- What a call does on a pool that it shares, all that happens to its units and the response that
its client takes, it can do on a pool of its own as well, with the snapshot that it took, whatever
else is called and whatever becomes of the ambient context.  A step that is made for another call
changes nothing of it, and a call that is refused is refused there, too. -/
theorem calls_do_not_interfere {backend : Backend} {executors : List Executor} {recorders : Nat} :
    (∀ (t : Task Effect Output) (e : Engine Effect Output (History Effect Output)),
      e.Serves threads t → ∃ a c,
        Run (Engine.own? History.note) ((Engine.new threads []).start t.start) a ∧
        e.calls[t.call]? = some c ∧ a.calls = [c] ∧ a.world = History.alone t.call e.world) ∧
    (∀ (s s₁ : Session β) (x : Nat) (e : Executor) (kind : EntryPoint) (refusal : Error),
      s.open x e kind = (.error refusal, s₁) →
      ∃ a₁, (s.alone threads).open x e kind = (.error refusal, a₁)) ∧
    ∀ (s s₁ s' : Session β) (x k : Nat) (e : Executor) (kind : EntryPoint) (j' : Journal),
      Run step? (Session.start threads backend executors recorders) s →
      s.open x e kind = (.ok k, s₁) → Run journaled? (s₁, .empty) (s', j') →
      ∃ a₁ a' ja c, (s.alone threads).open x e kind = (.ok 0, a₁) ∧
        Run own? (a₁, .empty) (a', ja) ∧ s'.engine.calls[k]? = some c ∧
        a'.engine.calls = [c] ∧ ja.past = History.alone k j'.past ∧
        (∀ r s₂, s'.conclude k = some (r, s₂) → ∃ a₂, a'.conclude 0 = some (r, a₂)) ∧
        ∀ m s₂, s'.step? m = some s₂ → s'.actor? m ≠ some k →
          s₂.engine.calls[k]? = some c ∧ s₂.engine.jobsOf k = s'.engine.jobsOf k ∧
            History.ofCall k (j'.after s' m).past = History.ofCall k j'.past := by
  refine ⟨?_, ?_, ?_⟩
  · intro t e h
    rcases h.exists_alone with ⟨a, hrun, ⟨c, hc, hcalls⟩, -, -, hworld⟩
    exact ⟨a, c, hrun, hc, hcalls, hworld⟩
  · intro s s₁ x e kind refusal hopen
    exact refused_alone hopen
  · intro s s₁ s' x k e kind j' hrun hopen hlater
    have hsound := sound_of_run hrun
    rcases (sound_start threads backend executors recorders).recorded hrun with ⟨before, hbefore⟩
    have hcounted : (s.engine.withWorld before).Counted (max threads 1) :=
      Run.preserves Engine.Counted.act (hbefore []) (Engine.counted_new threads [])
    rcases grouped_of_open hopen with ⟨groups, w, hg, rfl, rfl⟩
    rcases exists_mirror hsound hcounted.threads hg hlater with
      ⟨a', ja, hown, hmirrors, hissued'⟩
    rcases hmirrors.call with ⟨c, hc, hcalls⟩
    have hissued : s'.issued[s.engine.calls.length]? =
        some { executor := x, kind, queryId := s.snapshots + 1 } :=
      issued_of_open hsound hg (run_of_journaled hlater)
    have hg' : (s.alone threads).Grouped e groups w := hg
    have hzero : ((s.alone threads).open x e kind).1 = .ok 0 := by
      rw [open_ok x kind hg']
      rfl
    refine ⟨_, a', ja, c, Prod.ext hzero rfl, hown, hc, hcalls, hmirrors.world, ?_, ?_⟩
    · exact fun r s₂ hconclude => conclude_of_mirrors hmirrors hissued hissued' hconclude
    · exact fun m s₂ hstep hm => step?_of_other hc hm hstep

/-- Queries panic, and everything else is answered. -/
def panicky : Backend :=
  { Backend.willing with query := fun _ => .panic }

/-- An update is sent behind a query, the context is changed, and both jobs run. -/
def updateSteps : List (Step Unit) :=
  List.replicate 2 (.engine (.caller 1)) ++ .setRethrow true ::
    List.replicate 15 (.engine (.worker 0)) ++ List.replicate 2 (.engine (.caller 1))

/-- The query panics, and the update does what it does by itself. -/
theorem calls_do_not_interfere_pair : ∃ (s s₁ s' s₂ a₁ a' a₂ : Session Unit) (j' ja : Journal)
    (r : Response), Run step? (start 1 panicky [.single] 0) s ∧
      s.open 0 .single .update = (.ok 1, s₁) ∧ Run journaled? (s₁, .empty) (s', j') ∧
      s'.conclude 1 = some (r, s₂) ∧ (s.alone 1).open 0 .single .update = (.ok 0, a₁) ∧
      Run own? (a₁, .empty) (a', ja) ∧ a'.conclude 0 = some (r, a₂) := by
  have hsteps : (((calling .query 0 0 2 0 0).foldlM step?
      (start 1 panicky [.single] 0)).bind fun s =>
      (updateSteps.foldlM journaled? ((s.open 0 .single .update).2, .empty)).bind fun t =>
        (t.1.conclude 1).map fun _ => (s.open 0 .single .update).1.toOption) = some (some 1) := by
    decide +kernel
  rcases Option.bind_eq_some_iff.mp hsteps with ⟨s, hfirst, hsteps⟩
  rcases Option.bind_eq_some_iff.mp hsteps with ⟨⟨s', j'⟩, hlater, hsteps⟩
  rcases Option.map_eq_some_iff.mp hsteps with ⟨⟨r, s₂⟩, hconclude, hnumber⟩
  rcases hopen : s.open 0 .single .update with ⟨number | number, s₁⟩
  · rw [hopen] at hnumber
    cases hnumber
  · rw [hopen] at hnumber hlater
    cases hnumber
    have hrun := Run.of_moves hfirst
    have hmoves := Run.of_moves hlater
    rcases calls_do_not_interfere.2.2 s s₁ s' 0 1 .single .update j' hrun hopen hmoves with
      ⟨a₁, a', ja, c, hopen', hown, -, -, -, hresponse, -⟩
    rcases hresponse r s₂ hconclude with ⟨a₂, hconclude'⟩
    exact ⟨s, s₁, s', s₂, a₁, a', a₂, j', ja, r, hrun, hopen, hmoves, hconclude, hopen', hown,
      hconclude'⟩

end Session

end ScatterGather
