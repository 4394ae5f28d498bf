import ScatterGather.Proofs.Engine.Holding
import ScatterGather.Proofs.Session.Journal

/-!
# Releasing — which connections of a call are still held

All that holds a connection is on its way from a call to its client: a batch, a job, or a value that
has rows in an open cursor.  Once the call has returned and its jobs are over nothing is left but
the answer, and once the client has that it alone decides how long the connections are held.

* `Opened.streams` : the connections of the groups that stream, once for each of their units;
* `Opened.leases` : those of them that a response takes along;
* `Journal.Tells.held_of_quiet` : what the engine holds for a call without jobs;
* `Session.connections_handed_back` : the connections of a call, refused, answered or concluded.
-/

namespace ScatterGather

/-! ## Values -/

namespace Assignment

variable {b : Backend} {a : Assignment} {u : Placed BoundUnit} {v : Output}

/-- A value keeps its connection open if its rows are still in a cursor. -/
theorem held_of_value (h : (a.work b u).outcome = .value v) :
    v.held = if a.kind = .query ∧ u.unit.mode = .stream then [u.unit.connection] else [] := by
  have hcomes := comes_work b a u
  rw [h] at hcomes
  cases hcomes with
  | stream hk hm cursor => simp [hk, hm, Output.held, QueryResult.held, Stream.ofCursor]
  | memory hk hm buffer => simp [hm, Output.held, QueryResult.held]
  | count hk n => simp [hk, Output.held]
  | flag hk producedRows => simp [hk, Output.held]

/-- The value of a query is a result. -/
theorem rows_of_value (hk : a.kind = .query) (h : (a.work b u).outcome = .value v) :
    ∃ r, v = .rows r := by
  have hcomes := comes_work b a u
  rw [h] at hcomes
  cases hcomes with
  | stream | memory => exact ⟨_, rfl⟩
  | count hk' => simp [hk] at hk'
  | flag hk' => simp [hk] at hk'

end Assignment

/-! ## Calls -/

namespace Response

/-- The connections that a response keeps open. -/
def held : Response → List Connection
  | results rs => rs.flatMap QueryResult.held
  | _ => []

/-- Only queries have results. -/
theorem ofAnswer_ne_results {kind : EntryPoint} (hk : kind ≠ .query) (queryId : Nat)
    (answer : Answer Output) (rs : List QueryResult) :
    ofAnswer kind queryId answer ≠ results rs := by
  cases answer with
  | error e => simp [ofAnswer]
  | ok slots =>
      cases kind with
      | query => exact absurd rfl hk
      | update => cases ht : Merge.total? (slots.map fun slot => slot.bind Output.count?) <;>
          simp [ofAnswer, ht]
      | execute => simp [ofAnswer]

theorem held_eq_nil {r : Response} (h : ∀ rs, r ≠ results rs) : r.held = [] := by
  cases r with
  | results rs => exact absurd rfl (h rs)
  | total | overflow | flag | failed => rfl

end Response

namespace Opened

/-- The connections of the groups that stream, each once for every unit of the group. -/
def streams (o : Opened) : List Connection :=
  o.groups.flatMap fun g =>
    if g.mode = .stream then List.replicate g.units.length g.connection else []

/-- The connections that go to the client with a response: results alone take any along. -/
def leases (o : Opened) : Response → List Connection
  | .results _ => o.streams
  | _ => []

/-- The response to an answer of the engine. -/
def response (o : Opened) (answer : Answer Output) : Response :=
  .ofAnswer o.assignment.kind o.assignment.queryId answer

theorem leases_eq_nil (o : Opened) {r : Response} (h : ∀ rs, r ≠ .results rs) :
    o.leases r = [] := by
  cases r with
  | results rs => exact absurd rfl (h rs)
  | total | overflow | flag | failed => rfl

theorem leases_packed {o : Opened} (h : ∀ g ∈ o.groups, g.mode = .memory) (r : Response) :
    o.leases r = [] := by
  have hnone : o.streams = [] := by
    apply List.flatMap_eq_nil_iff.mpr
    intro g hg
    simp [h g hg]
  cases r with
  | results rs => exact hnone
  | total | overflow | flag | failed => rfl

theorem task_connections (o : Opened) (b : Backend) (k : Nat) :
    (o.task b k).connections = o.connections := by
  rw [Task.connections, task, List.map_map]
  rfl

end Opened

namespace Journal.Tells

variable {β : Type} {s : Session β} {j : Journal} {threads k : Nat} {o : Opened} {x : Connection}

theorem owning (h : j.Tells threads s) (ho : j.calls[k]? = some o) :
    (o.task s.backend k).Owning Output.held := by
  intro b hb u hu x hx
  rcases List.mem_map.mp hb with ⟨g, hg, rfl⟩
  rcases List.mem_map.mp hu with ⟨v, hv, rfl⟩
  cases hout : (o.assignment.work s.backend v).outcome with
  | value output =>
      rw [Work.held_of_value hout, Assignment.held_of_value hout] at hx
      split at hx
      · exact (List.mem_singleton.mp hx).trans (h.bound ho hg hv).1
      · cases hx
  | failure e => simp [Work.held, hout] at hx
  | panic => simp [Work.held, hout] at hx

/-- Together the values of a query keep the connections of its streaming groups open. -/
theorem task_held (h : j.Tells threads s) (ho : j.calls[k]? = some o)
    (hsucceed : ∀ u ∈ (o.task s.backend k).units, u.Succeeds) :
    (o.task s.backend k).units.flatMap (Work.held Output.held) =
      if o.assignment.kind = .query then o.streams else [] := by
  have hunit : ∀ g ∈ o.groups, ∀ u ∈ g.units,
      (o.assignment.work s.backend u).held Output.held =
        if o.assignment.kind = .query ∧ g.mode = .stream then [g.connection] else [] := by
    intro g hg u hu
    have hmem : o.assignment.work s.backend u ∈ (o.task s.backend k).units := by
      rw [o.task_units]
      exact List.mem_map_of_mem (List.mem_flatMap.mpr ⟨g, hg, hu⟩)
    rcases hsucceed _ hmem with ⟨v, hv⟩
    rcases h.bound ho hg hu with ⟨hconnection, hmode, -⟩
    rw [Work.held_of_value hv, Assignment.held_of_value hv, hconnection, hmode]
  have hgroup : ∀ g ∈ o.groups, (g.units.flatMap fun u =>
      (o.assignment.work s.backend u).held Output.held) = if o.assignment.kind = .query then
        (if g.mode = .stream then List.replicate g.units.length g.connection else []) else [] := by
    intro g hg
    rw [List.flatMap_congr (hunit g hg)]
    by_cases hk : o.assignment.kind = .query
    · by_cases hm : g.mode = .stream
      · simp [hk, hm, ← List.map_eq_flatMap]
      · simp [hk, hm]
    · simp [hk]
  have hunits : (o.task s.backend k).units.flatMap (Work.held Output.held) =
      o.groups.flatMap fun g => g.units.flatMap fun u =>
        (o.assignment.work s.backend u).held Output.held := by
    rw [o.task_units, List.flatMap_map, Opened.units, List.flatMap_assoc]
  rw [hunits, List.flatMap_congr hgroup]
  by_cases hk : o.assignment.kind = .query
  · simp [hk, Opened.streams]
  · simp [hk]

/-- What goes to the client of a call is what its answer has kept, and what its response keeps. -/
theorem answer_held (h : j.Tells threads s) (ho : j.calls[k]? = some o) {answer : Answer Output}
    (ha : s.engine.answer? k = some answer) :
    (Phase.returned answer : Phase Effect Output).held Output.held = (o.response answer).held ∧
      (o.response answer).held.Perm (o.leases (o.response answer)) := by
  rcases h.answered ho ha with ⟨sh, -, v, hanswered⟩
  have hnum := h.task_numbered ho
  cases answer with
  | error e => exact ⟨rfl, .refl _⟩
  | ok slots =>
      have hsucceed : ∀ u ∈ (o.task s.backend k).units, u.Succeeds := fun u hu =>
        ((hanswered.ok_iff v hnum).mp ⟨slots, rfl⟩ u hu).2
      have hperm : (slotsHeld Output.held slots).Perm _ := hanswered.slotsHeld_perm v hnum
      rw [h.task_held ho hsucceed] at hperm
      by_cases hk : o.assignment.kind = .query
      · rcases hanswered.slots v hnum with ⟨hlength, -, hvalues⟩
        have hfull : ∀ slot ∈ slots, ∃ r, slot = some (.rows r) := by
          intro slot hslot
          rcases List.getElem?_of_mem hslot with ⟨position, hposition⟩
          have hlt : position < (o.task s.backend k).total :=
            hlength ▸ (List.getElem?_eq_some_iff.mp hposition).1
          rcases hnum.exists_unit hlt with ⟨u, hu, rfl⟩
          rcases hvalues u hu with ⟨a, ha, hslot⟩
          rw [o.task_units] at hu
          rcases List.mem_map.mp hu with ⟨w, -, rfl⟩
          rcases Assignment.rows_of_value hk ha with ⟨r, rfl⟩
          exact ⟨r, Option.some.inj (hposition.symm.trans hslot)⟩
        rcases Response.ofAnswer_rows o.assignment.queryId hfull with ⟨rs, hslots, hresponse⟩
        rw [if_pos hk] at hperm
        have hheld : slotsHeld Output.held slots = rs.flatMap QueryResult.held := by
          rw [hslots, slotsHeld, List.flatMap_map]
          rfl
        rw [hheld] at hperm
        rw [Opened.response, hk, hresponse]
        exact ⟨hheld, hperm⟩
      · rw [if_neg hk, List.perm_nil] at hperm
        have hnone : ∀ rs, o.response (.ok slots) ≠ .results rs :=
          Response.ofAnswer_ne_results hk o.assignment.queryId (.ok slots)
        rw [Response.held_eq_nil hnone, o.leases_eq_nil hnone]
        exact ⟨hperm, .refl _⟩

/-! ## The engine -/

/-- Every connection is one of a single call. -/
theorem call_eq (h : j.Tells threads s) {k' : Nat} {o' : Opened} (ho : j.calls[k]? = some o)
    (ho' : j.calls[k']? = some o') (hx : x ∈ o.connections) (hx' : x ∈ o'.connections) :
    k = k' := by
  rcases List.mem_map.mp hx with ⟨g, hg, rfl⟩
  rcases List.mem_map.mp hx' with ⟨g', hg', hsame⟩
  rcases List.getElem?_of_mem hg with ⟨i, hi⟩
  rcases List.getElem?_of_mem hg' with ⟨i', hi'⟩
  have hplace := h.place_eq (mem_places ho hi) (mem_places ho' hi')
    (congrArg Connection.id hsame.symm)
  exact congrArg (fun p : (Nat × Nat) × Connection => p.1.1) hplace

/-- A job holds connections of its call. -/
theorem job_held (h : j.Tells threads s) {job : Job Effect Output} (hjob : job ∈ s.engine.jobs)
    (hx : x ∈ job.held Output.held) :
    ∃ o, j.calls[job.call]? = some o ∧ x ∈ o.connections := by
  rcases h.job_orderly hjob with ⟨o, sh, ho, horderly, hmem, -⟩
  exact ⟨o, ho, o.task_connections s.backend job.call ▸ horderly.job_held (h.owning ho) hmem hx⟩

/-- So does a caller, and one that has returned holds nothing but its answer. -/
theorem call_held (h : j.Tells threads s) (ho : j.calls[k]? = some o) {c : Call Effect Output}
    (hc : s.engine.calls[k]? = some c) :
    (∀ x ∈ c.held Output.held, x ∈ o.connections) ∧
      (c.isListening = false → c.held Output.held = c.phase.held Output.held) := by
  rcases (h.serves k o ho).cleared with ⟨sh, hsh, horderly, hcleared⟩
  have hsame : sh.call = c := by
    have hcall : s.engine.calls[k]? = some sh.call := (Engine.share?_eq_some.mp hsh).1
    exact Option.some.inj (hcall.symm.trans hc)
  rw [hsame] at hcleared
  refine ⟨?_, hcleared.held_eq⟩
  intro x hx
  rw [← o.task_connections s.backend k]
  exact horderly.valid.call_held (hsame ▸ hcleared) (h.task_numbered ho) (h.owning ho) (hsame ▸ hx)

/-- Of the connections of a call without jobs that has returned, the engine holds those that are in
its answer. -/
theorem held_of_quiet (h : j.Tells threads s) (ho : j.calls[k]? = some o)
    {c : Call Effect Output} (hc : s.engine.calls[k]? = some c) (hdeaf : c.isListening = false)
    (hquiet : s.engine.hasReporter k = false) :
    (s.engine.held Output.held).filter (· ∈ o.connections) = c.phase.held Output.held := by
  have hjobs : (s.engine.jobs.flatMap (Job.held Output.held)).filter (· ∈ o.connections) = [] := by
    apply List.filter_eq_nil_iff.mpr
    intro x hx hmine
    rcases List.mem_flatMap.mp hx with ⟨job, hjob, hxjob⟩
    rcases h.job_held hjob hxjob with ⟨o', ho', hx'⟩
    have hcall := h.call_eq ho' ho hx' (of_decide_eq_true hmine)
    -- there would be a job of the call
    simp only [Engine.hasReporter, List.any_eq_false, beq_iff_eq] at hquiet
    exact hquiet job hjob hcall
  have hcalls : (s.engine.calls.flatMap (Call.held Output.held)).filter (· ∈ o.connections) =
      c.held Output.held := by
    rw [List.filter_flatMap, Partition.flatMap_of_only hc]
    · exact List.filter_eq_self.mpr fun x hx => by simpa using (h.call_held ho hc).1 x hx
    · -- the connections of other calls are others
      intro n c' hc' hne
      rcases h.exists_page (List.getElem?_eq_some_iff.mp hc').1 with ⟨o', ho'⟩
      apply List.filter_eq_nil_iff.mpr
      intro x hx hmine
      exact hne (h.call_eq ho' ho ((h.call_held ho' hc').1 x hx) (of_decide_eq_true hmine))
  rw [Engine.held, List.filter_append, hjobs, hcalls, List.append_nil,
    (h.call_held ho hc).2 hdeaf]

/-- Whatever the engine holds is one of the connections of the journal. -/
theorem held_known (h : j.Tells threads s) (hx : x ∈ s.engine.held Output.held) :
    x ∈ s.world.connections := by
  have hknown {k : Nat} {o : Opened} (ho : j.calls[k]? = some o) (hxo : x ∈ o.connections) :
      x ∈ s.world.connections :=
    h.connections.subset (List.mem_flatMap.mpr ⟨o, List.mem_of_getElem? ho, hxo⟩)
  rcases List.mem_append.mp hx with hx | hx
  · rcases List.mem_flatMap.mp hx with ⟨c, hc, hxc⟩
    rcases List.getElem?_of_mem hc with ⟨k, hk⟩
    rcases h.exists_page (List.getElem?_eq_some_iff.mp hk).1 with ⟨o, ho⟩
    exact hknown ho ((h.call_held ho hk).1 x hxc)
  · rcases List.mem_flatMap.mp hx with ⟨job, hjob, hxjob⟩
    rcases h.job_held hjob hxjob with ⟨o, ho, hxo⟩
    exact hknown ho hxo

end Journal.Tells

/-! ## Clients -/

/-- The caller of a call whose answer was collected makes no move. -/
theorem Call.Turn.not_over {κ α : Type} {k : Nat} {quiet : Prop} {c c' : Call κ α}
    {new : List (Job κ α)} (h : c.Turn k quiet c' new) : c.phase ≠ .over := by
  intro hover
  cases h with
  | submit hp | count hp | listen hp | gather hp hi | stop hp hi hq =>
      rw [hover] at hp
      cases hp

/-- A call whose answer was collected stays as it is. -/
theorem Share.Step.phase_over {κ α : Type} {k : Nat} {s s' : Share κ α} (h : s.Step k s')
    (hover : s.call.phase = .over) : s'.call.phase = .over := by
  cases h with
  | call ht => exact absurd hover ht.not_over
  | collect hp => rfl
  | work hj ht => exact ht.phase_eq.trans hover

namespace Session

variable {β : Type} {s s₂ s₃ s' : Session β} {j j' : Journal} {threads k : Nat} {o : Opened}
  {r : Response}

/-- A journal only grows. -/
theorem calls_prefix (h : Run journaled? (s, j) (s', j')) : j.calls <+: j'.calls := by
  refine Run.preserves (P := fun r : Session β × Journal => j.calls <+: r.2.calls) ?_ h
    List.prefix_rfl
  rintro ⟨s₁, j₁⟩ ⟨s₂, j₂⟩ m hs hstep
  rcases journaled?_eq_some.mp hstep with ⟨-, rfl⟩
  cases m with
  | begin x kind => exact hs.trans (List.prefix_append ..)
  | engine | conclude | insert | remove | clear | setRethrow | beginSweep | sweep => exact hs

/-- A client takes the response to the answer of its call, which is over then. -/
theorem response_of_conclude (h : j.Tells threads s) (ho : j.calls[k]? = some o)
    (hconclude : s.conclude k = some (r, s₂)) :
    ∃ answer, s.engine.answer? k = some answer ∧ r = o.response answer ∧
      j.Tells threads s₂ ∧ ∃ c, s₂.engine.calls[k]? = some c ∧ c.phase = .over := by
  have hstep : s.step? (.conclude k) = some s₂ := by
    simp [step?, hconclude]
  have htells : j.Tells threads s₂ := h.step hstep
  rcases conclude_eq_some hconclude with ⟨i, c, answer, success, hi, hc, hp, rfl, rfl⟩
  have hissue : i = o.issue := Option.some.inj (hi.symm.trans (h.issue_eq ho))
  refine ⟨answer, ?_, by rw [hissue]; rfl, htells, { c with phase := .over }, ?_, rfl⟩
  · simp [Engine.answer?, hc, Call.answer?, hp]
  · simp [Engine.withWorld, Engine.setCall, (List.getElem?_eq_some_iff.mp hc).1]

/-- All that the engine and a client hold. -/
def heldBy (s : Session β) (kept : List (String × List QueryResult)) : List Connection :=
  s.engine.held Output.held ++ kept.flatMap fun (_, rs) => rs.flatMap QueryResult.held

theorem mem_heldBy {kept : List (String × List QueryResult)} {x : Connection} :
    x ∈ s.heldBy kept ↔
      x ∈ s.engine.held Output.held ∨ ∃ p ∈ kept, ∃ q ∈ p.2, x ∈ q.held := by
  simp only [heldBy, List.mem_append, List.mem_flatMap]

theorem openConnections_keeping (s : Session β) (kept : List (String × List QueryResult)) :
    ({ s with kept } : Session β).openConnections =
      s.world.connections.filter fun c => (s.heldBy kept).contains c := rfl

/-- A call that is over and has no jobs holds nothing. -/
theorem not_held_of_over (h : j.Tells threads s) (ho : j.calls[k]? = some o)
    (hover : ∃ c, s.engine.calls[k]? = some c ∧ c.phase = .over)
    (hquiet : s.engine.hasReporter k = false) {x : Connection} (hx : x ∈ o.connections) :
    x ∉ s.engine.held Output.held := by
  rcases hover with ⟨c, hc, hp⟩
  have hheld := h.held_of_quiet ho hc (by simp [Call.isListening, hp]) hquiet
  rw [hp] at hheld
  intro hmem
  have hnone := List.filter_eq_nil_iff.mp hheld x hmem
  simp [hx] at hnone

/-- Once it is over, what a call has held is held by those who keep its results. -/
theorem held_by_keepers (h : j.Tells threads s) (ho : j.calls[k]? = some o)
    (hover : ∃ c, s.engine.calls[k]? = some c ∧ c.phase = .over) (hlater : Run step? s s')
    (hquiet : s'.engine.hasReporter k = false) (kept : List (String × List QueryResult))
    {x : Connection} (hx : x ∈ o.connections) :
    x ∈ ({ s' with kept } : Session β).openConnections ↔ ∃ p ∈ kept, ∃ q ∈ p.2, x ∈ q.held := by
  rcases exists_journal j hlater with ⟨j', hrun⟩
  have h' := h.run hrun
  have ho' : j'.calls[k]? = some o := by
    rcases calls_prefix hrun with ⟨more, hmore⟩
    rw [← hmore, List.getElem?_append_left (List.getElem?_eq_some_iff.mp ho).1, ho]
  have hover' : ∃ c, s'.engine.calls[k]? = some c ∧ c.phase = .over := by
    rcases hover with ⟨c, hc, hp⟩
    have hshare : ∃ sh, (s.engine.withWorld j.past).share? k = some sh ∧ sh.call.phase = .over :=
      ⟨⟨c, _, _⟩, Engine.share?_eq_some.mpr ⟨hc, rfl, rfl⟩, hp⟩
    rcases Engine.share?_run (fun hover hstep => hstep.phase_over hover) (recorded_of_run hrun)
      hshare with ⟨sh, hsh, hp⟩
    exact ⟨sh.call, (Engine.share?_eq_some.mp hsh).1, hp⟩
  have hknown : x ∈ s'.world.connections :=
    h'.connections.subset (List.mem_flatMap.mpr ⟨o, List.mem_of_getElem? ho', hx⟩)
  have hnot := not_held_of_over h' ho' hover' hquiet hx
  rw [openConnections_keeping, List.mem_filter, List.contains_iff_mem, mem_heldBy]
  constructor
  · rintro ⟨-, hheld | hkept⟩
    · exact absurd hheld hnot
    · exact hkept
  · intro hkept
    exact ⟨hknown, .inr hkept⟩

/-- A route that is refused leaves no connection behind. -/
theorem openConnections_of_refused (h : j.Tells threads s) {x : Nat} {kind : EntryPoint}
    {e : Executor} {refusal : Error} (hopen : s.open x e kind = (.error refusal, s₂))
    {kept : List (String × List QueryResult)}
    (hkept : ∀ p ∈ kept, ∀ q ∈ p.2, ∀ c ∈ q.held, c ∈ s.world.connections) :
    ({ s₂ with kept } : Session β).openConnections =
      ({ s with kept } : Session β).openConnections := by
  rcases Grouping.group_connected s.backend e.options e.cap e.route s.world with
    ⟨new, hconnected, -⟩
  rcases hg : (Grouping.group (World.binder s.backend e.options) e.cap e.route).run s.world with
    ⟨result, w⟩
  rw [hg] at hconnected
  cases result with
  | ok groups =>
      rw [open_ok x kind hg] at hopen
      cases hopen
  | error refusal' =>
      rw [open_error x kind hg] at hopen
      have hworld : s₂.world.connections = s.world.connections ++ new := by
        rw [← (Prod.mk.inj hopen).2]
        exact hconnected.connections
      have hheld : s₂.heldBy kept = s.heldBy kept := by
        rw [← (Prod.mk.inj hopen).2]
        rfl
      -- those that were handed out before the refusal are new, and nobody has them
      have hnodup := (hconnected.numbered_world h.numbered).nodup
      rw [hconnected.connections, List.map_append, List.nodup_append] at hnodup
      have hnone : new.filter (fun c => (s.heldBy kept).contains c) = [] := by
        apply List.filter_eq_nil_iff.mpr
        intro c hc hheld
        have hfresh : c ∉ s.world.connections := fun hold =>
          hnodup.2.2 _ (List.mem_map_of_mem hold) _ (List.mem_map_of_mem hc) rfl
        rcases mem_heldBy.mp (List.contains_iff_mem.mp hheld) with hheld | ⟨p, hp, q, hq, hcq⟩
        · exact hfresh (h.held_known hheld)
        · exact hfresh (hkept p hp q hq c hcq)
      rw [openConnections_keeping, openConnections_keeping, hheld, hworld, List.filter_append,
        hnone, List.append_nil]

/-- A refused call leaves no connection held.  Once a call has returned and its jobs are over, the
connections of it that are held are those of the results in its answer, which are the connections of
its streaming groups, once for every unit; any other response holds none.  When the client has
concluded the call, its results alone decide which of the connections are held. -/
theorem connections_handed_back {threads : Nat} {backend : Backend} {executors : List Executor}
    {recorders : Nat}
    (hrun : Run journaled? (Session.start threads backend executors recorders, .empty) (s, j)) :
    (∀ x kind e refusal s₂, s.open x e kind = (.error refusal, s₂) →
      ∀ kept : List (String × List QueryResult),
        (∀ p ∈ kept, ∀ q ∈ p.2, ∀ c ∈ q.held, c ∈ s.world.connections) →
        ({ s₂ with kept } : Session β).openConnections =
          ({ s with kept } : Session β).openConnections) ∧
    ∀ k o, j.calls[k]? = some o →
      (∀ answer, s.engine.answer? k = some answer → s.engine.hasReporter k = false →
        (s.engine.held Output.held).filter (· ∈ o.connections) = (o.response answer).held) ∧
      ∀ r s₂, s.conclude k = some (r, s₂) →
        r.held.Perm (o.leases r) ∧
        (o.assignment.kind ≠ .query ∨ (∀ g ∈ o.groups, g.mode = .memory) → r.held = []) ∧
        ∀ s₃, Run step? s₂ s₃ → s₃.engine.hasReporter k = false →
          ∀ (kept : List (String × List QueryResult)), ∀ c ∈ o.connections,
            (c ∈ ({ s₃ with kept } : Session β).openConnections ↔
              ∃ p ∈ kept, ∃ q ∈ p.2, c ∈ q.held) := by
  have h := tells_of_run hrun
  refine ⟨fun x kind e refusal s₂ hopen kept => openConnections_of_refused h hopen, ?_⟩
  intro k o ho
  refine ⟨?_, ?_⟩
  · intro answer ha hquiet
    rcases Option.bind_eq_some_iff.mp ha with ⟨c, hc, hanswer⟩
    have hp : c.phase = .returned answer := by
      cases hp : c.phase <;> simp [Call.answer?, hp] at hanswer ⊢
      exact hanswer
    rw [h.held_of_quiet ho hc (by simp [Call.isListening, hp]) hquiet, hp]
    exact (h.answer_held ho ha).1
  · intro r s₂ hconclude
    rcases response_of_conclude h ho hconclude with ⟨answer, ha, rfl, h₂, hover⟩
    have hleases := (h.answer_held ho ha).2
    refine ⟨hleases, ?_, fun s₃ hlater hquiet kept c hc =>
      held_by_keepers h₂ ho hover hlater hquiet kept hc⟩
    rintro (hk | hpacked)
    · exact Response.held_eq_nil (Response.ofAnswer_ne_results hk _ answer)
    · exact List.perm_nil.mp (o.leases_packed hpacked _ ▸ hleases)

/-! ## An example -/

/-- A query fails at the unit whose rows break off, and its last unit is skipped.  Where each target
has a connection of its own the rows are left to the client, and nothing fails. -/
def leasingSteps : List (Step Unit) :=
  calling .query 0 0 3 26 2 ++ calling .query 1 1 7 36 3

/-- The query that fails holds nothing once it has returned, and the one that succeeds holds the
connections of its three units until its client lets the results go. -/
theorem connections_handed_back_torn : ∃ (s s₂ : Session Unit) (j : Journal) (o o' : Opened)
    (r : Response), Run journaled? (start 1 .torn [.packed, .spread] 0, .empty) (s, j) ∧
      j.calls[0]? = some o ∧ o.connections = [⟨0, "ds_0"⟩] ∧
      (s.engine.held Output.held).filter (· ∈ o.connections) = [] ∧
      j.calls[1]? = some o' ∧ o'.connections = [⟨1, "ds_0"⟩, ⟨2, "ds_1"⟩, ⟨3, "ds_2"⟩] ∧
      (s.engine.held Output.held).filter (· ∈ o'.connections) =
        [⟨1, "ds_0"⟩, ⟨2, "ds_1"⟩, ⟨3, "ds_2"⟩] ∧
      s.conclude 1 = some (r, s₂) ∧ r.held = [⟨1, "ds_0"⟩, ⟨2, "ds_1"⟩, ⟨3, "ds_2"⟩] ∧
      ∀ kept : List (String × List QueryResult), ∀ c ∈ o'.connections,
        c ∈ ({ s₂ with kept } : Session Unit).openConnections ↔
          ∃ p ∈ kept, ∃ q ∈ p.2, c ∈ q.held := by
  have hseen : ∃ t ∈ leasingSteps.foldlM journaled? (start 1 .torn [.packed, .spread] 0, .empty),
      t.1.engine.jobs.length = 0 ∧
      (∃ o ∈ t.2.calls[0]?, o.connections = [⟨0, "ds_0"⟩] ∧
        ∃ answer ∈ t.1.engine.answer? 0, (o.response answer).held = []) ∧
      (∃ o ∈ t.2.calls[1]?, o.connections = [⟨1, "ds_0"⟩, ⟨2, "ds_1"⟩, ⟨3, "ds_2"⟩] ∧
        ∃ answer ∈ t.1.engine.answer? 1, (o.response answer).held = o.connections) ∧
      ∃ q ∈ t.1.conclude 1, q.1.held = [⟨1, "ds_0"⟩, ⟨2, "ds_1"⟩, ⟨3, "ds_2"⟩] ∧
        q.2.engine.hasReporter 1 = false := by
    decide +kernel
  rcases hseen with ⟨⟨s, j⟩, hmoves, hjobs, ⟨o, ho, hconnections, answer, ha, hnone⟩,
    ⟨o', ho', hconnections', answer', ha', hall⟩, ⟨r, s₂⟩, hconclude, hheld, hover⟩
  have hjobs : s.engine.jobs = [] := List.eq_nil_of_length_eq_zero hjobs
  have hquiet (k : Nat) : s.engine.hasReporter k = false := by simp [Engine.hasReporter, hjobs]
  have hrun := Run.of_moves hmoves
  have hback := (connections_handed_back hrun).2
  have hfailed := (hback 0 o ho).1 answer ha (hquiet 0)
  have hanswered := (hback 1 o' ho').1 answer' ha' (hquiet 1)
  have hconcluded := ((hback 1 o' ho').2 r s₂ hconclude).2.2 s₂ .refl hover
  exact ⟨s, s₂, j, o, o', r, hrun, ho, hconnections, hfailed.trans hnone, ho', hconnections',
    hanswered.trans (hall.trans hconnections'), hconclude, hheld, hconcluded⟩

end Session

end ScatterGather
