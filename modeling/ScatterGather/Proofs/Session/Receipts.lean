import ScatterGather.Proofs.Session.Metering
import ScatterGather.Proofs.Session.Releasing

/-!
# Receipts — the answers of a session, and what is counted for them

A call is answered at its opening, if its route is refused, or when its client concludes it.
Receipts of the answers grow along with the journal, and no other step but those of the engine
counts anything.  So the metrics are at all times those of what is in the two.

* `Receipt` : an answer that was given to a client;
* `Session.booked?` : the steps of a session with its journal and its receipts;
* `Session.exists_receipts` : every run has its receipts;
* `Session.step_gains` : what a step adds to the metrics is what it adds to the books;
* `Session.gains_of_run`, `Session.reading_of_run` : the metrics are those of the books.
-/

namespace ScatterGather

/-! ## Receipts -/

/-- The answer that the client of a call was given. -/
structure Receipt where
  /-- The number of the call, if it was admitted to the engine. -/
  call : Option Nat
  kind : EntryPoint
  answer : Answer Output

namespace Receipt

def succeeds (r : Receipt) : Bool :=
  r.answer.isOk

def failures? (r : Receipt) : Option Nat :=
  r.answer.failures?

/-- What is counted for the answer: the call, and its duration. -/
def series (r : Receipt) : List Series :=
  [.executions r.kind r.succeeds, .durations r.kind]

end Receipt

namespace Session

variable {β : Type} {s s' : Session β} {j j' : Journal} {rs rs' : List Receipt} {m : Step β}

/-- The answer that a step gives to a client. -/
def receipt? (s : Session β) : Step β → Option Receipt
  | .begin x kind => do
      let e ← s.executors[x]?
      match (s.open x e kind).1 with
      | .error refusal => some ⟨none, kind, .error refusal⟩
      | .ok _ => none
  | .conclude n => do
      let issued ← s.issued[n]?
      let answer ← s.engine.answer? n
      some ⟨some n, issued.kind, answer⟩
  | _ => none

def booked? (r : (Session β × Journal) × List Receipt) (m : Step β) :
    Option ((Session β × Journal) × List Receipt) :=
  (journaled? r.1 m).map fun t => (t, r.2 ++ (r.1.1.receipt? m).toList)

theorem booked?_eq_some : booked? ((s, j), rs) m = some ((s', j'), rs') ↔
    s.step? m = some s' ∧ j' = j.after s m ∧ rs' = rs ++ (s.receipt? m).toList := by
  simp only [booked?, Option.map_eq_some_iff, Prod.mk.injEq]
  constructor
  · rintro ⟨t, hstep, rfl, rfl⟩
    rcases journaled?_eq_some.mp hstep with ⟨hm, hj⟩
    exact ⟨hm, hj, rfl⟩
  · rintro ⟨hm, hj, rfl⟩
    exact ⟨(s', j'), journaled?_eq_some.mpr ⟨hm, hj⟩, rfl, rfl⟩

theorem journaled_of_booked {t t' : (Session β × Journal) × List Receipt}
    (h : Run booked? t t') : Run journaled? t.1 t'.1 := by
  refine Relation.ReflTransGen.lift (p := Moves journaled?) Prod.fst ?_ _ _ h
  rintro t t' ⟨m, hm⟩
  rcases Option.map_eq_some_iff.mp hm with ⟨p, hp, rfl⟩
  exact ⟨m, hp⟩

/-- Every run of a session with its journal has its receipts. -/
theorem exists_receipts {p p' : Session β × Journal} (rs : List Receipt)
    (h : Run journaled? p p') : ∃ rs', Run booked? (p, rs) (p', rs') := by
  induction h with
  | refl => exact ⟨rs, .refl⟩
  | @tail q q' _ hstep ih =>
      rcases ih with ⟨rs', hrun⟩
      rcases hstep with ⟨m, hm⟩
      refine ⟨rs' ++ (q.1.receipt? m).toList, hrun.snoc (m := m) ?_⟩
      simp [booked?, hm]

/-! ## Metrics -/

/-- All that was counted, by the series that it was counted for. -/
def samples (j : Journal) (rs : List Receipt) : List Series :=
  (History.effects j.past).filterMap Effect.series? ++
    (j.calls.flatMap Opened.groups).map (fun g => .groups g.mode) ++ rs.flatMap Receipt.series

/-- A call that is refused is counted, and the groups of one that is not. -/
theorem open_gains (x : Nat) (e : Executor) (kind : EntryPoint) :
    (∃ refusal, (s.open x e kind).1 = .error refusal ∧ s.opened? x e kind = none ∧
      s.world.metrics.Gains (s.open x e kind).2.world.metrics
        (Receipt.series ⟨none, kind, .error refusal⟩)) ∨
    ∃ n o, (s.open x e kind).1 = .ok n ∧ s.opened? x e kind = some o ∧
      s.world.metrics.Gains (s.open x e kind).2.world.metrics
        (o.groups.map fun g => .groups g.mode) := by
  rcases Grouping.group_connected s.backend e.options e.cap e.route s.world with
    ⟨new, hconnected, -⟩
  rcases hg : (Grouping.group (World.binder s.backend e.options) e.cap e.route).run s.world with
    ⟨result, w⟩
  rw [hg] at hconnected
  have hsame : w.metrics = s.world.metrics := (congrArg World.metrics hconnected.frame :)
  cases result with
  | error refusal =>
      refine .inl ⟨refusal, ?_, opened?_of_refused hg, ?_⟩
      · rw [open_error x kind hg]
      · rw [open_error x kind hg, ← hsame]
        exact countExecution_gains kind false w
  | ok groups =>
      refine .inr ⟨s.engine.calls.length, _, ?_, opened?_of_grouped hg, ?_⟩
      · rw [open_ok x kind hg]
      · rw [open_ok x kind hg, ← hsame]
        exact countGroups_gains groups w

theorem receipt?_conclude {n : Nat} {i : Issued} {c : Call Effect Output} {answer : Answer Output}
    (hi : s.issued[n]? = some i) (hc : s.engine.calls[n]? = some c)
    (hp : c.phase = .returned answer) : s.engine.answer? n = some answer ∧
      s.receipt? (.conclude n) = some ⟨some n, i.kind, answer⟩ := by
  have hanswer : s.engine.answer? n = some answer := by
    simp [Engine.answer?, hc, Call.answer?, hp]
  exact ⟨hanswer, by simp [receipt?, hi, hanswer]⟩

/-- A client that takes its answer has it counted. -/
theorem conclude_gains {n : Nat} {r : Response} (h : s.conclude n = some (r, s')) :
    ∃ receipt, s.receipt? (.conclude n) = some receipt ∧
      s.world.metrics.Gains s'.world.metrics receipt.series := by
  simp only [conclude, Option.bind_eq_bind, Option.bind_eq_some_iff, Option.some.injEq,
    Prod.exists, Prod.mk.injEq] at h
  rcases h with ⟨i, hi, answer, e, hcollect, -, rfl⟩
  rcases Engine.collect_eq_some hcollect with ⟨c, hc, hp, rfl⟩
  refine ⟨_, (receipt?_conclude hi hc hp).2, ?_⟩
  cases answer with
  | ok slots => exact countExecution_gains i.kind true s.world
  | error e => exact countExecution_gains i.kind false s.world

/-- What a step adds to the metrics is what it adds to the books. -/
theorem step_gains (h : s.step? m = some s') : ∃ ts, s.world.metrics.Gains s'.world.metrics ts ∧
    (samples j rs ++ ts).Perm (samples (j.after s m) (rs ++ (s.receipt? m).toList)) := by
  -- a step that neither counts anything nor is booked
  have hstay (hmetrics : s'.world.metrics = s.world.metrics) (hnone : s.receipt? m = none)
      (hj : j.after s m = j) : ∃ ts, s.world.metrics.Gains s'.world.metrics ts ∧
        (samples j rs ++ ts).Perm (samples (j.after s m) (rs ++ (s.receipt? m).toList)) := by
    refine ⟨[], hmetrics ▸ .refl _, ?_⟩
    simp [hnone, hj]
  cases m with
  | begin x kind =>
      rcases Option.bind_eq_some_iff.mp h with ⟨e, he, hopen⟩
      cases hopen
      rcases s.open_gains x e kind with
        ⟨refusal, hrefused, hnone, hgains⟩ | ⟨n, o, hgranted, hopened, hgains⟩
      · -- a refusal is booked, and no page is written
        refine ⟨_, hgains, ?_⟩
        simp [receipt?, he, hrefused, Journal.after, hnone, samples]
      · -- the groups come with the page of the call, whose answer is still to come
        refine ⟨_, hgains, ?_⟩
        simp only [receipt?, he, hgranted, Journal.after, hopened, samples, Option.bind_eq_bind,
          Option.bind_some, Option.toList_some, Option.toList_none, List.append_nil,
          List.flatMap_append, List.flatMap_singleton, List.map_append, List.append_assoc]
        exact (List.perm_append_comm.append_left _).append_left _
  | engine m =>
      rcases Option.map_eq_some_iff.mp h with ⟨e', hmove, rfl⟩
      have hworld := (shown_of_step hmove).1
      rw [replay_eq_foldl] at hworld
      refine ⟨_, hworld ▸ World.performAll_gains _ _, ?_⟩
      simp only [receipt?, Journal.after, samples, Option.toList_none, List.append_nil,
        History.effects_append, List.filterMap_append, List.append_assoc]
      refine List.Perm.append_left _ ?_
      rw [← List.append_assoc]
      exact List.perm_append_comm
  | conclude n =>
      rcases Option.map_eq_some_iff.mp h with ⟨⟨r, s₁⟩, hconclude, rfl⟩
      rcases conclude_gains hconclude with ⟨receipt, hreceipt, hgains⟩
      refine ⟨_, hgains, ?_⟩
      simp [hreceipt, Journal.after, samples]
  | sweep i =>
      rcases sweepStep?_eq_some h with ⟨x, sweep, sweep', r, w, -, hw, rfl⟩
      exact hstay (congrArg World.metrics hw :) rfl rfl
  | insert | remove | clear | setRethrow | beginSweep =>
      cases h
      exact hstay rfl rfl rfl

/-- The metrics are at what is in the books. -/
theorem gains_of_run {p : Session β × Journal} (hj : p.2 = .empty)
    (h : Run booked? (p, []) ((s, j), rs)) :
    p.1.world.metrics.Gains s.world.metrics (samples j rs) := by
  refine Run.preserves (P := fun t : (Session β × Journal) × List Receipt =>
    p.1.world.metrics.Gains t.1.1.world.metrics (samples t.1.2 t.2)) ?_ h ?_
  · rintro ⟨⟨s, j⟩, rs⟩ ⟨⟨s', j'⟩, rs'⟩ m hs hstep
    rcases booked?_eq_some.mp hstep with ⟨hm, rfl, rfl⟩
    rcases step_gains hm with ⟨ts, hgains, hperm⟩
    exact (hs.trans hgains).perm hperm
  · rw [hj]
    exact .refl _

/-- How often a series is among all that was counted. -/
theorem count_samples (j : Journal) (rs : List Receipt) (t : Series) :
    (samples j rs).count t = ((History.effects j.past).filterMap Effect.series?).count t +
      ((j.calls.flatMap Opened.groups).countP fun g => .groups g.mode = t) +
      (rs.countP fun r => .executions r.kind r.succeeds = t) +
      rs.countP fun r => .durations r.kind = t := by
  have hgroups : ((j.calls.flatMap Opened.groups).map fun g => Series.groups g.mode).count t =
      (j.calls.flatMap Opened.groups).countP fun g => .groups g.mode = t := by
    rw [List.count, List.countP_map]
    exact List.countP_congr fun g _ => by simp
  have hreceipts : (rs.flatMap Receipt.series).count t =
      (rs.countP fun r => .executions r.kind r.succeeds = t) +
        rs.countP fun r => .durations r.kind = t := by
    induction rs with
    | nil => rfl
    | cons r rs ih =>
        simp only [List.flatMap_cons, Receipt.series, List.count_append, ih, List.count_cons,
          List.count_nil, List.countP_cons, beq_iff_eq, decide_eq_true_eq]
        omega
  rw [samples, List.count_append, List.count_append, hgroups, hreceipts, ← Nat.add_assoc]

/-- Units count nothing but units. -/
theorem count_effects_eq_zero {t : Series} (ht : ∀ kind success, t ≠ .units kind success)
    (es : List Effect) : (es.filterMap Effect.series?).count t = 0 := by
  rw [List.count_eq_zero]
  intro hmem
  rcases List.mem_filterMap.mp hmem with ⟨e, -, he⟩
  cases e with
  | countUnit kind success => exact ht kind success (Option.some.inj he).symm
  | announce | beginCall | endCall | openCursor | trackStatement | trackCursor | readCursor =>
      cases he

/-- All series but one start at nothing. -/
theorem reading_of_run {threads : Nat} {backend : Backend} {executors : List Executor}
    {recorders : Nat} {t : Series} (ht : t ≠ .poolThreads)
    (h : Run booked? ((start threads backend executors recorders, .empty), []) ((s, j), rs)) :
    s.world.metrics.reading t = (samples j rs).count t := by
  have hgains := gains_of_run rfl h t
  have hzero : (start threads backend executors recorders : Session β).world.metrics.reading t =
      0 := by
    simp [start, world, Engine.new, Metrics.reading, Metrics.set, Metrics.empty, ht]
  rw [hgains, hzero, Nat.zero_add]

end Session

end ScatterGather
