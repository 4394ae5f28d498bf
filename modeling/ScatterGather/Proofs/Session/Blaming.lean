import ScatterGather.Proofs.Reading
import ScatterGather.Proofs.Session.Refusing
import ScatterGather.Proofs.Session.Tracking

/-!
# Blaming — whose failure an error tells of

The error of a unit is built where its call is made or its rows are read, carried to the caller with
the position of the unit, compared with others, and perhaps counted among them.  On all these ways
it keeps the position, the target and the reason of the one unit that it comes from, whatever
connection that unit ran on and whatever else was running.

* `Assignment.Fault` : what a data source can do to a unit, and what the unit says of it;
* `Assignment.fault_of_work` : a unit does not fail for any other reason;
* `Policy.Wraps` : what the caller makes of the failure of a unit;
* `Share.Answered.wraps` : an execution error is made of the failure that one unit has reported;
* `Session.refusal_ne_execution` : a call that is refused has no such error;
* `Session.errors_name_their_unit` : so the error of a call names the unit and its reason.
-/

namespace ScatterGather

/-! ## Units -/

/-- What a data source can do to a unit, with the reason that the unit fails for. -/
inductive Assignment.Fault (b : Backend) (a : Assignment) (u : Placed BoundUnit) : String → Prop
  | query {e : BackendError} (kind : a.kind = .query)
      (reply : b.query u.unit.statement = .failure e) : Fault b a u e.message
  | update {e : BackendError} (kind : a.kind = .update)
      (reply : b.update u.unit.statement = .failure e) : Fault b a u e.message
  | execute {e : BackendError} (kind : a.kind = .execute)
      (reply : b.execute u.unit.statement = .failure e) : Fault b a u e.message
  /-- The cursor opens, and on a shared connection one of its reads fails. -/
  | drain {cursor : Cursor} {rows : List Row} {e : BackendError} (kind : a.kind = .query)
      (reply : b.query u.unit.statement = .answer cursor) (mode : u.unit.mode = .memory)
      (reads : cursor.answers (rows.length + 1) = rows.map .row ++ [.failure e]) :
      Fault b a u ("Cursor on '" ++ u.unit.route.target ++ "' failed: " ++ e.message)

namespace Assignment

variable {b : Backend} {a : Assignment} {u : Placed BoundUnit} {err : ExecutionError}

theorem simple_failure {α : Type} {output : α → Output} {reply : Reply α}
    (h : (simple u output reply).2 = .failure err) :
    ∃ e, reply = .failure e ∧ err = unitError u e.message := by
  cases reply with
  | answer x => cases h
  | panic => cases h
  | failure e =>
      cases h
      exact ⟨e, rfl, rfl⟩

/-- Rows that are left in their cursor cannot be missed, so the rows were to be read. -/
theorem receive_failure {cursor : Cursor} (h : (receive b u cursor).2 = .failure err) :
    ∃ (rows : List Row) (e : BackendError), u.unit.mode = .memory ∧
      cursor.answers (rows.length + 1) = rows.map .row ++ [.failure e] ∧
      err = unitError u (cursorError u.unit.route.target e).message := by
  cases hm : u.unit.mode with
  | stream =>
      simp only [receive, hm] at h
      cases h
  | memory =>
      rcases receive_memory b hm cursor with ⟨n, -, -, hreceive⟩ | ⟨-, hreceive⟩
      · rw [hreceive] at h
        cases h
      · rw [hreceive] at h
        cases hread : (Buffer.readAll cursor).1 with
        | error e =>
            rcases Buffer.answers_of_readAll_error hread with ⟨rows, hrows⟩
            rw [hread] at h
            exact ⟨rows, e, rfl, hrows, (Outcome.failure.inj h).symm⟩
        | ok rows =>
            rw [hread] at h
            cases h

/-- A unit fails with the reason of its own call, or of the reads behind it. -/
theorem fault_of_work (h : (a.work b u).outcome = .failure err) :
    ∃ reason, err = unitError u reason ∧ a.Fault b u reason := by
  have hcall : (a.afterCall b u).2 = .failure err := h
  cases hk : a.kind with
  | query =>
      cases hq : b.query u.unit.statement with
      | answer cursor =>
          simp only [afterCall, hk, hq, afterQuery] at hcall
          rcases receive_failure hcall with ⟨rows, e, hm, hreads, rfl⟩
          exact ⟨_, rfl, .drain hk hq hm hreads⟩
      | failure e =>
          simp only [afterCall, hk, hq, afterQuery, Outcome.failure.injEq] at hcall
          exact ⟨e.message, hcall.symm, .query hk hq⟩
      | panic =>
          simp only [afterCall, hk, hq, afterQuery] at hcall
          cases hcall
  | update =>
      simp only [afterCall, hk] at hcall
      rcases simple_failure hcall with ⟨e, hu, rfl⟩
      exact ⟨e.message, rfl, .update hk hu⟩
  | execute =>
      simp only [afterCall, hk] at hcall
      rcases simple_failure hcall with ⟨e, he, rfl⟩
      exact ⟨e.message, rfl, .execute hk he⟩

end Assignment

/-! ## Callers -/

/-- What the caller makes of the failure of a unit: under fail-fast it hands it on, and under best
effort it puts it in front of the number of all failures. -/
inductive Policy.Wraps : Policy → ExecutionError → ExecutionError → Prop
  | failFast (e : ExecutionError) : Wraps .failFast e e
  | bestEffort (e : ExecutionError) (failed : Nat) : Wraps .bestEffort e (.aggregate e failed)

theorem Policy.Wraps.unitIndex?_eq {policy : Policy} {e err : ExecutionError}
    (h : policy.Wraps e err) : err.unitIndex? = e.unitIndex? := by
  cases h <;> rfl

theorem Policy.Wraps.of_aggregate {policy : Policy} {e first : ExecutionError} {failed : Nat}
    (h : policy.Wraps e (.aggregate first failed)) : e = first ∨ e = .aggregate first failed := by
  cases h with
  | failFast => exact .inr rfl
  | bestEffort => exact .inl rfl

/-- The error of a call is made of a failure that one of its units has reported. -/
theorem Share.Answered.wraps {κ α : Type} {t : Task κ α} {s : Share κ α} {err : ExecutionError}
    (h : s.Answered t (.error (.execution err))) (v : s.Valid t) (hnum : t.Numbered) :
    ∃ u ∈ t.units, ∃ e, u.outcome = .failure e ∧ t.policy.Wraps e err ∧
      .done u.position (.error e) ∈ History.channel s.history := by
  -- whichever failure was kept, it has come through the channel
  have hreported {position : Nat} {e : ExecutionError} (hwraps : t.policy.Wraps e err)
      (hmem : .done position (.error e) ∈ History.channel s.history) :
      ∃ u ∈ t.units, ∃ e, u.outcome = .failure e ∧ t.policy.Wraps e err ∧
        .done u.position (.error e) ∈ History.channel s.history := by
    rcases v.of_failure hmem with ⟨u, hu, rfl, he⟩
    exact ⟨u, hu, e, he, hwraps, hmem⟩
  rcases h.cases_of_numbered v hnum with
    ⟨_, hvalues, -⟩ | ⟨position, e, haggregate, hpolicy, -, hkeep⟩ |
    ⟨got, lost, position, e, hfailure, hpolicy, hchannel, -⟩ | ⟨_, hbug, -⟩
  · cases hvalues
  · cases haggregate
    exact hreported (hpolicy ▸ Policy.Wraps.bestEffort e _) (Report.keepAll_eq_some hkeep).1
  · cases hfailure
    have hmem : .done position (.error err) ∈ History.channel s.history := by simp [hchannel]
    exact hreported (hpolicy ▸ Policy.Wraps.failFast err) hmem
  · cases hbug

/-! ## Calls -/

theorem Backend.refusalOf?_ne_execution (b : Backend) (r : Request) (err : ExecutionError) :
    b.refusalOf? r ≠ some (.execution err) := by
  intro h
  cases r <;> simp only [refusalOf?, Option.map_eq_some_iff, reduceCtorEq, and_false,
    exists_false] at h

theorem Response.answer_of_failed {kind : EntryPoint} {queryId : Nat} {answer : Answer Output}
    {err : ExecutionError} (h : Response.ofAnswer kind queryId answer = .failed (.execution err)) :
    answer = .error (.execution err) := by
  cases answer with
  | error e =>
      cases h
      rfl
  | ok slots =>
      simp only [Response.ofAnswer] at h
      cases kind with
      | query =>
          simp only at h
          split at h <;> cases h
      | update =>
          simp only at h
          split at h <;> cases h
      | execute => cases h

namespace Session

variable {β : Type} {s s' : Session β} {j : Journal}

/-- Connections and statements are refused before anything runs. -/
theorem refusal_ne_execution {x : Nat} {e : Executor} {kind : EntryPoint} {refusal : Error}
    (h : s.open x e kind = (.error refusal, s')) (err : ExecutionError) :
    refusal ≠ .execution err := by
  rintro rfl
  rcases open_of_refusal s x e kind with ⟨asked, -, -, -, hnone, hsome⟩
  cases hfirst : asked.findSome? s.backend.refusalOf? with
  | none =>
      rcases hnone hfirst with ⟨number, hok⟩
      rw [h] at hok
      cases hok
  | some refusal =>
      rcases hsome refusal hfirst with ⟨granted, prepared, -, hopen⟩
      rw [h] at hopen
      cases hopen
      rcases List.exists_of_findSome?_eq_some hfirst with ⟨r, -, hr⟩
      exact s.backend.refusalOf?_ne_execution r err hr

/-- Whatever units fail and in whatever order they report, an execution error of a call is that of
one unit, or has the error of one unit in front.  It bears the position and the target of the unit
in the route, and the reason for which its own call or its own reads have failed. -/
theorem errors_name_their_unit {threads : Nat} {backend : Backend} {executors : List Executor}
    {recorders : Nat}
    (hrun : Run journaled? (start threads backend executors recorders, .empty) (s, j)) :
    (∀ x e kind refusal s', s.open x e kind = (.error refusal, s') →
      ∀ err, refusal ≠ .execution err) ∧
    ∀ k err s', s.conclude k = some (.failed (.execution err), s') →
      ∃ o u reason, j.calls[k]? = some o ∧ s.issued[k]? = some o.issue ∧
        s.executors[o.assignment.registry]? = some o.executor ∧ u ∈ o.units ∧
        u.position < o.executor.route.length ∧
        o.executor.route[u.position]? = some u.unit.route ∧
        u.unit.statement.route = u.unit.route ∧
        o.assignment.Fault s.backend u reason ∧
        .done u.position (.error (.unit u.position u.unit.route.target reason)) ∈
          History.channel (History.ofCall k j.past) ∧
        o.policy.Wraps (.unit u.position u.unit.route.target reason) err ∧
        (Error.execution err).unitIndex? = some u.position := by
  refine ⟨fun x e kind refusal s' hopen => refusal_ne_execution hopen, ?_⟩
  intro k err s' hconclude
  have h := tells_of_run hrun
  rcases conclude_eq_some hconclude with ⟨i, c, answer, success, -, hc, hp, hresponse, -⟩
  have hanswer := Response.answer_of_failed hresponse.symm
  subst hanswer
  rcases h.exists_page (List.getElem?_eq_some_iff.mp hc).1 with ⟨o, ho⟩
  have hmem := List.mem_of_getElem? ho
  have ha : s.engine.answer? k = some (.error (.execution err)) := by
    simp [Engine.answer?, hc, Call.answer?, hp]
  rcases h.answered ho ha with ⟨sh, hhistory, v, hanswered⟩
  rcases hanswered.wraps v (h.task_numbered ho) with ⟨w, hw, e, hfailure, hwraps, hreported⟩
  -- the unit of the engine is that of a group
  rw [o.task_units] at hw
  rcases List.mem_map.mp hw with ⟨u, hu, rfl⟩
  rcases Assignment.fault_of_work hfailure with ⟨reason, rfl, hfault⟩
  rcases h.grouped o hmem with ⟨w, w', hgroups⟩
  rcases List.mem_flatMap.mp hu with ⟨g, hg, hug⟩
  rcases Grouping.bound_of_mem hgroups hg hug with ⟨hroute, -, -, hstatement⟩
  refine ⟨o, u, reason, ho, h.issue_eq ho, h.executor o hmem, hu,
    (List.getElem?_eq_some_iff.mp hroute).1, hroute, by rw [hstatement], hfault, ?_, hwraps, ?_⟩
  · rw [← hhistory]
    exact hreported
  · exact hwraps.unitIndex?_eq

end Session

/-! ## An example -/

/-- The rows of two of three targets break off. -/
def Backend.ragged : Backend :=
  { Backend.willing with
    query := fun s => .answer (.ofScript ["id"]
      (if s.route.target = "ds_0" then [.row []]
        else [.row [], .failure (.ofMessage ("no more of " ++ s.route.target))])) }

/-- The error that a response tells of. -/
def Response.error? : Response → Option Error
  | failed e => some e
  | _ => none

theorem Response.error?_eq_some {r : Response} {e : Error} (h : r.error? = some e) :
    r = .failed e := by
  cases r <;> cases h
  rfl

namespace Session

/-- A query under best effort runs until its job is over, and its caller hears of three units. -/
def raggedSteps : List (Step Unit) :=
  .setRethrow false :: calling .query 0 0 3 36 3

/-- The first of the units that fail ran on a connection to another target. -/
theorem errors_name_their_unit_ragged : ∃ (s s' : Session Unit) (j : Journal) (o : Opened)
    (u : Placed BoundUnit),
    Run journaled? (start 1 .ragged [.packed] 0, .empty) (s, j) ∧
      s.conclude 0 = some (.failed (.execution (.aggregate
        (.unit 1 "ds_1" "Cursor on 'ds_1' failed: no more of ds_1") 2)), s') ∧
      j.calls[0]? = some o ∧ u ∈ o.units ∧ u.position = 1 ∧ u.unit.route.target = "ds_1" ∧
      u.unit.connection.target = "ds_0" ∧
      o.assignment.Fault s.backend u "Cursor on 'ds_1' failed: no more of ds_1" := by
  have hseen : ∃ r ∈ raggedSteps.foldlM journaled? (start 1 .ragged [.packed] 0, .empty),
      (∃ p ∈ r.1.conclude 0, p.1.error? = some (.execution (.aggregate
        (.unit 1 "ds_1" "Cursor on 'ds_1' failed: no more of ds_1") 2))) ∧
      ∃ o ∈ r.2.calls[0]?, ∀ u ∈ o.units, u.unit.connection.target = "ds_0" := by
    decide +kernel
  rcases hseen with ⟨⟨s, j⟩, hmoves, ⟨⟨r, s'⟩, hconclude, herror⟩, o, ho, hconnections⟩
  cases Response.error?_eq_some herror
  have hrun := Run.of_moves hmoves
  rcases (errors_name_their_unit hrun).2 0 _ s' hconclude with
    ⟨o', u, reason, ho', -, -, hu, -, -, -, hfault, -, hwraps, -⟩
  rw [ho] at ho'
  cases ho'
  rcases hwraps.of_aggregate with hfirst | hsame
  · rcases ExecutionError.unit.inj hfirst with ⟨hposition, htarget, rfl⟩
    exact ⟨s, s', j, o, u, hrun, hconclude, ho, hu, hposition, htarget, hconnections u hu, hfault⟩
  · cases hsame

end Session

end ScatterGather
