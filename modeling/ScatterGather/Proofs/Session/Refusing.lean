import ScatterGather.Proofs.Grouping.Asking
import ScatterGather.Proofs.Session.Releasing

/-!
# Refusing — a call whose route is refused

A call asks for all its connections and statements before any of its units runs.  One refusal is
enough to end it, whatever was granted before, and nothing tells afterwards that it was ever made
but the log, the numbers that were handed out, and one count of a failed call.

* `Session.afterRefusal` : what a refused call leaves behind;
* `Session.open_of_refusal` : the first refusal is the answer of the call;
* `Session.refused_call_changes_nothing` : this is so in every state, for every route and cap.
-/

namespace ScatterGather

namespace Session

variable {β : Type}

/-- A session after a call was refused that had `asked` for these connections and statements and was
granted some of them. -/
def afterRefusal (s : Session β) (kind : EntryPoint) (asked : List Request)
    (granted : List Connection) (prepared : Nat) : Session β :=
  { s with
    snapshots := s.snapshots + 1
    engine := s.engine.withWorld { s.world with
      connections := s.world.connections ++ granted
      prepared
      log := s.world.log ++ asked
      metrics := (s.world.metrics.add (.executions kind false) 1).add (.durations kind) 1 } }

@[simp]
theorem afterRefusal_connections (s : Session β) (kind : EntryPoint) (asked : List Request)
    (granted : List Connection) (prepared : Nat) :
    (s.afterRefusal kind asked granted prepared).world.connections =
      s.world.connections ++ granted := rfl

@[simp]
theorem afterRefusal_log (s : Session β) (kind : EntryPoint) (asked : List Request)
    (granted : List Connection) (prepared : Nat) :
    (s.afterRefusal kind asked granted prepared).world.log = s.world.log ++ asked := rfl

/-- A call is opened if nothing is refused to it, and else the first refusal is its answer. -/
theorem open_of_refusal (s : Session β) (x : Nat) (e : Executor) (kind : EntryPoint) :
    ∃ asked, (s.open x e kind).2.world.log = s.world.log ++ asked ∧ (∀ r ∈ asked, r.binds) ∧
      (∀ r ∈ asked.dropLast, s.backend.refusalOf? r = none) ∧
      (asked.findSome? s.backend.refusalOf? = none → ∃ number, (s.open x e kind).1 = .ok number) ∧
      ∀ refusal, asked.findSome? s.backend.refusalOf? = some refusal → ∃ granted prepared,
        (∀ c ∈ granted, s.world.Numbered → c ∉ s.world.connections) ∧
        s.open x e kind = (.error refusal, s.afterRefusal kind asked granted prepared) := by
  rcases Grouping.group_asked s.backend e.options e.cap e.route s.world with ⟨asked, hasked⟩
  rcases Grouping.group_connected s.backend e.options e.cap e.route s.world with
    ⟨granted, hconnected, -⟩
  rcases hg : (Grouping.group (World.binder s.backend e.options) e.cap e.route).run s.world with
    ⟨result, w⟩
  rw [hg] at hasked hconnected
  refine ⟨asked, ?_, hasked.binds, hasked.granted, ?_, ?_⟩
  · cases result with
    | error refusal =>
        rw [open_error x kind hg]
        exact hasked.log
    | ok groups =>
        rw [open_ok x kind hg]
        exact (congrArg World.log (countGroups_eq groups w)).trans hasked.log
  · intro hnone
    cases result with
    | error refusal =>
        rw [hasked.refusal] at hnone
        cases hnone
    | ok groups =>
        rw [open_ok x kind hg]
        exact ⟨_, rfl⟩
  · intro refusal hrefusal
    rw [hasked.refusal] at hrefusal
    cases result with
    | ok groups => cases hrefusal
    | error refusal =>
        cases hrefusal
        refine ⟨granted, w.prepared, ?_, ?_⟩
        · -- connections are told apart by their numbers
          intro c hc hnumbered hold
          have hnodup := (hconnected.numbered_world hnumbered).nodup
          rw [hconnected.connections, List.map_append, List.nodup_append] at hnodup
          exact hnodup.2.2 _ (List.mem_map_of_mem hold) _ (List.mem_map_of_mem hc) rfl
        · have hw : w = { s.world with
              connections := s.world.connections ++ granted
              prepared := w.prepared
              log := s.world.log ++ asked } := by
            rw [← hconnected.connections, ← hasked.log]
            exact hconnected.frame
          have hcounted : countExecution kind false w = { s.world with
              connections := s.world.connections ++ granted
              prepared := w.prepared
              log := s.world.log ++ asked
              metrics :=
                (s.world.metrics.add (.executions kind false) 1).add (.durations kind) 1 } := by
            conv_lhs => rw [hw]
            rfl
          rw [open_error x kind hg, hcounted]
          rfl

/-- Whatever state it is in, a session that is asked to run a route answers with the first refusal,
and the requests end there.  They have opened and prepared, and run nothing.  The engine and its
pool, the registries, the cursors, the listeners and the sweeps are as they were, one failed call
and its duration were counted, and none of the connections that had been granted is held. -/
theorem refused_call_changes_nothing (s : Session β) (x : Nat) (e : Executor) (kind : EntryPoint) :
    ∃ asked, (s.open x e kind).2.world.log = s.world.log ++ asked ∧ (∀ r ∈ asked, r.binds) ∧
      (∀ r ∈ asked.dropLast, s.backend.refusalOf? r = none) ∧
      (asked.findSome? s.backend.refusalOf? = none → ∃ number, (s.open x e kind).1 = .ok number) ∧
      ∀ refusal, asked.findSome? s.backend.refusalOf? = some refusal → ∃ granted prepared,
        s.open x e kind = (.error refusal, s.afterRefusal kind asked granted prepared) ∧
        (∀ (gate : String → Gate) (s₀ : Session β),
          s₀.mapWorld (fun w : World => { w with passages := [] }) = s →
          s₀.call gate x e kind =
            some (.failed refusal, s.afterRefusal kind asked granted prepared)) ∧
        ∀ threads executors recorders j,
          Run journaled? (start threads s.backend executors recorders, .empty) (s, j) →
          ∀ kept : List (String × List QueryResult),
            (∀ p ∈ kept, ∀ q ∈ p.2, ∀ c ∈ q.held, c ∈ s.world.connections) →
            ({ s.afterRefusal kind asked granted prepared with kept } :
                Session β).openConnections = ({ s with kept } : Session β).openConnections ∧
              ∀ c ∈ granted, c ∉ ({ s.afterRefusal kind asked granted prepared with kept } :
                Session β).openConnections := by
  rcases open_of_refusal s x e kind with ⟨asked, hlog, hbinds, hdone, hnone, hsome⟩
  refine ⟨asked, hlog, hbinds, hdone, hnone, fun refusal hrefusal => ?_⟩
  rcases hsome refusal hrefusal with ⟨granted, prepared, hfresh, hopen⟩
  refine ⟨granted, prepared, hopen, ?_, ?_⟩
  · intro gate s₀ hs₀
    simp only [call, hs₀, hopen]
  · intro threads executors recorders j hrun kept hkept
    have h := tells_of_run hrun
    have hsame := openConnections_of_refused h hopen hkept
    refine ⟨hsame, fun c hc hheld => hfresh c hc h.numbered ?_⟩
    rw [hsame] at hheld
    exact (List.mem_filter.mp hheld).1

end Session

/-! ## An example -/

/-- Connections are granted to all targets, and statements to all but one. -/
def Backend.wary : Backend :=
  { Backend.willing with
    prepareError? := fun _ u =>
      if u.target = "ds_2" then some (.prepare "ds_2" "no such table") else none }

namespace Session

/-- An earlier call has left something in its registry.  Two connections and two statements are
granted to this one, and then the statement of its second group is refused. -/
theorem refused_call_changes_nothing_triple : ∃ (s : Session Unit) (j : Journal)
    (asked : List Request) (granted : List Connection) (prepared : Nat),
    Run journaled? (start 1 .wary [.single, .triple] 0, .empty) (s, j) ∧
      (s.registry 0).counts = (1, 1) ∧ asked.length = 5 ∧ granted.length = 2 ∧
      s.open 1 .triple .query = (.error (.statement (.prepare "ds_2" "no such table")),
        s.afterRefusal .query asked granted prepared) ∧
      ∀ c ∈ granted, c ∉ (s.afterRefusal .query asked granted prepared).openConnections := by
  have hsteps : (singleSteps.foldlM journaled? (start 1 .wary [.single, .triple] 0, .empty)).map
      (fun r => ((r.1.registry 0).counts, r.1.kept.length,
        Grouping.refusal? id (r.1.open 1 .triple .query).1,
        (r.1.open 1 .triple .query).2.world.log.length - r.1.world.log.length,
        (r.1.open 1 .triple .query).2.world.connections.length -
          r.1.world.connections.length)) =
        some ((1, 1), 0, some (.statement (.prepare "ds_2" "no such table")), 5, 2) := by
    decide +kernel
  rcases Option.map_eq_some_iff.mp hsteps with ⟨⟨s, j⟩, hmoves, hseen⟩
  simp only [Prod.mk.injEq] at hseen
  rcases hseen with ⟨hcounts, hkept, hanswer, hlog, hconnections⟩
  have hrun := Run.of_moves hmoves
  have hbackend : s.backend = .wary := backend_of_run (run_of_journaled hrun)
  rcases refused_call_changes_nothing s 1 .triple .query with ⟨asked, -, -, -, hnone, hsome⟩
  cases hfirst : asked.findSome? s.backend.refusalOf? with
  | none =>
      rcases hnone hfirst with ⟨number, hok⟩
      rw [hok] at hanswer
      cases hanswer
  | some refusal =>
      rcases hsome refusal hfirst with ⟨granted, prepared, hopen, -, hreleased⟩
      rw [hopen] at hanswer hlog hconnections
      cases hanswer
      refine ⟨s, j, asked, granted, prepared, hrun, hcounts, ?_, ?_, hopen, ?_⟩
      · simpa using hlog
      · simpa using hconnections
      · exact (hreleased 1 [.single, .triple] 0 j (hbackend ▸ hrun) s.kept
          (by simp [List.eq_nil_of_length_eq_zero hkept])).2

end Session

end ScatterGather
