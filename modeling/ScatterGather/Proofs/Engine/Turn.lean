import ScatterGather.Proofs.Engine.History
import ScatterGather.Proofs.Pool.Jobs

/-!
# Turn — everything that a caller or a job can do in one step

The relations `Call.Turn` and `Job.Turn` list the steps once, each with its guard, so that later
arguments go through named cases and never through the nested branches of the definitions.

* `Call.Turn` : the step of a caller, and the jobs that it sends;
* `Call.gather_cases` : what a report does to its caller;
* `Job.Turn` : the step of a job, what becomes of its call and what others can see of it;
* `Engine.callerStep?_turn`, `Engine.workerStep?_turn` : an engine makes no other steps.
-/

namespace ScatterGather

variable {κ α ω : Type}

/-! ## Units -/

namespace Outcome

/-- The result that a unit reports; one that panics reports none. -/
def result? : Outcome α → Option (Except ExecutionError α)
  | value a => some (.ok a)
  | failure e => some (.error e)
  | panic => none

end Outcome

namespace Stage

/-- The stage behind the report of a result. -/
def afterReport (policy : Policy) : Except ExecutionError α → Stage κ α
  | .ok _ => checking
  | .error _ => if policy = .failFast then draining else checking

/-- The effects that a unit under way has still to perform. -/
def todo : Stage κ α → List κ
  | running _ left => left
  | _ => []

end Stage

namespace Call

/-- The flag goes up when a unit fails under fail-fast, and it stays up. -/
def raise (c : Call κ α) : Call κ α :=
  { c with abort := c.abort || c.policy == .failFast }

@[simp] theorem raise_policy (c : Call κ α) : c.raise.policy = c.policy := rfl

@[simp] theorem raise_phase (c : Call κ α) : c.raise.phase = c.phase := rfl

@[simp] theorem raise_inbox (c : Call κ α) : c.raise.inbox = c.inbox := rfl

@[simp] theorem deliver_policy (c : Call κ α) (r : Report α) :
    (c.deliver r).policy = c.policy := rfl

@[simp] theorem deliver_phase (c : Call κ α) (r : Report α) :
    (c.deliver r).phase = c.phase := rfl

@[simp] theorem deliver_abort (c : Call κ α) (r : Report α) :
    (c.deliver r).abort = c.abort := rfl

@[simp] theorem deliver_inbox (c : Call κ α) (r : Report α) :
    (c.deliver r).inbox = c.inbox ++ [r] := rfl

end Call

/-! ## Callers -/

namespace Call

/-- One step of the caller of call number `k`, where `quiet` says that no job of the call is left:
the call after it, and the jobs that it sends. -/
inductive Turn (k : Nat) (quiet : Prop) (c : Call κ α) : Call κ α → List (Job κ α) → Prop
  | submit {i : Nat} {b : Batch κ α} {left : List (Nat × Batch κ α)}
      (hp : c.phase = .submitting ((i, b) :: left)) :
      Turn k quiet c { c with phase := .counting left } [.ofBatch k i b]
  | count {left : List (Nat × Batch κ α)} (hp : c.phase = .counting left) :
      Turn k quiet c { c with phase := .submitting left } []
  | listen (hp : c.phase = .submitting []) : Turn k quiet c { c with phase := .gathering } []
  | gather {r : Report α} {rest : List (Report α)} (hp : c.phase = .gathering)
      (hi : c.inbox = r :: rest) : Turn k quiet c (({ c with inbox := rest }).gather r) []
  /-- No report can come any more. -/
  | stop (hp : c.phase = .gathering) (hi : c.inbox = []) (hq : quiet) :
      Turn k quiet c
        (c.finish (.error (.bug (.workerStopped c.queryId c.received c.total)))) []

end Call

/-! ## Reports -/

namespace Call

variable {c : Call κ α}

theorem gather_value {position : Nat} (hin : position < c.slots.length) (a : α) :
    c.gather (.done position (.ok a)) = settle { c with
      received := c.received + 1
      slots := c.slots.set position (some a) } := by
  simp [gather, hin]

theorem gather_outOfRange {position : Nat} (hin : ¬ position < c.slots.length) (a : α) :
    c.gather (.done position (.ok a)) = finish { c with received := c.received + 1 }
      (.error (.bug (.positionOutOfRange position c.total))) := by
  simp [gather, hin]

theorem gather_failFast (hpolicy : c.policy = .failFast) (position : Nat) (e : ExecutionError) :
    c.gather (.done position (.error e)) =
      finish { c with received := c.received + 1 } (.error (.execution e)) := by
  simp [gather, hpolicy]

theorem gather_bestEffort (hpolicy : c.policy = .bestEffort) (position : Nat)
    (e : ExecutionError) :
    c.gather (.done position (.error e)) = settle { c with
      received := c.received + 1
      failed := c.failed + 1
      first := some (lowest position e c.first) } := by
  simp [gather, hpolicy]

/-- All that a caller leaves alone while it takes a report and goes on. -/
structure Alike (c c' : Call κ α) : Prop where
  policy : c'.policy = c.policy
  queryId : c'.queryId = c.queryId
  total : c'.total = c.total
  abort : c'.abort = c.abort
  phase : c'.phase = c.phase
  inbox : c'.inbox = c.inbox

theorem settle_cases (c : Call κ α) : c.settle = c ∨ ∃ answer, c.settle = c.finish answer := by
  by_cases hlt : c.received < c.total
  · exact .inl (by simp [settle, hlt])
  · right
    cases hfirst : c.first with
    | none => exact ⟨.ok c.slots, by simp [settle, hlt, hfirst]⟩
    | some first =>
        exact ⟨.error (.execution (.aggregate first.2 c.failed)), by simp [settle, hlt, hfirst]⟩

/-- A caller that takes a report goes on or returns. -/
theorem gather_cases (c : Call κ α) (r : Report α) :
    ∃ c₁, c.Alike c₁ ∧ (c.gather r = c₁ ∨ ∃ answer, c.gather r = c₁.finish answer) := by
  have hsettle (c₁ : Call κ α) (h : c.Alike c₁) :
      ∃ c₂, c.Alike c₂ ∧ (c₁.settle = c₂ ∨ ∃ answer, c₁.settle = c₂.finish answer) :=
    ⟨c₁, h, settle_cases c₁⟩
  cases r with
  | skipped position =>
      exact hsettle { c with received := c.received + 1 } ⟨rfl, rfl, rfl, rfl, rfl, rfl⟩
  | done position result =>
      cases result with
      | ok a =>
          by_cases hin : position < c.slots.length
          · rw [gather_value hin]
            exact hsettle _ ⟨rfl, rfl, rfl, rfl, rfl, rfl⟩
          · rw [gather_outOfRange hin]
            exact ⟨{ c with received := c.received + 1 }, ⟨rfl, rfl, rfl, rfl, rfl, rfl⟩,
              .inr ⟨_, rfl⟩⟩
      | error e =>
          cases hpolicy : c.policy with
          | failFast =>
              rw [gather_failFast hpolicy]
              exact ⟨{ c with received := c.received + 1 }, ⟨rfl, rfl, rfl, rfl, rfl, rfl⟩,
              .inr ⟨_, rfl⟩⟩
          | bestEffort =>
              rw [gather_bestEffort hpolicy]
              exact hsettle _ ⟨rfl, rfl, rfl, rfl, rfl, rfl⟩

/-- Taking a report changes only what is tallied and the phase. -/
theorem gather_frame (c : Call κ α) (r : Report α) :
    (c.gather r).policy = c.policy ∧ (c.gather r).queryId = c.queryId ∧
      (c.gather r).total = c.total ∧ (c.gather r).abort = c.abort := by
  rcases c.gather_cases r with ⟨c₁, h, hsame | ⟨answer, hfinish⟩⟩
  · exact hsame ▸ ⟨h.policy, h.queryId, h.total, h.abort⟩
  · rw [hfinish]
    exact ⟨h.policy, h.queryId, h.total, h.abort⟩

theorem gather_phase (c : Call κ α) (r : Report α) :
    (c.gather r).phase = c.phase ∧ (c.gather r).inbox = c.inbox ∨
      ∃ answer, (c.gather r).phase = .returned answer ∧ (c.gather r).inbox = [] := by
  rcases c.gather_cases r with ⟨c₁, h, hsame | ⟨answer, hfinish⟩⟩
  · exact .inl (hsame ▸ ⟨h.phase, h.inbox⟩)
  · exact .inr ⟨answer, by rw [hfinish]; exact ⟨rfl, rfl⟩⟩

end Call

/-! ## Jobs -/

namespace Job

/-- One step of job `j` of call `c`: what is left of the job, the call after it, and what others
can see. -/
inductive Turn (j : Job κ α) (c : Call κ α) :
    Progress (Job κ α) → Call κ α → History κ α → Prop
  /-- Nothing is left of the batch. -/
  | done (hs : j.stage = .checking) (hr : j.rest = []) : Turn j c .ends c []
  | skip {u : Work κ α} {rest : List (Work κ α)} (hs : j.stage = .checking)
      (hr : j.rest = u :: rest) (hp : c.policy = .failFast) (ha : c.abort = true) :
      Turn j c (.continues { j with stage := .skipping u, rest }) c []
  | start {u : Work κ α} {rest : List (Work κ α)} (hs : j.stage = .checking)
      (hr : j.rest = u :: rest) (hp : c.policy = .failFast → c.abort = false) :
      Turn j c (.continues { j with stage := .running u u.effects, rest }) c
        [.begun (j.site u)]
  | perform {u : Work κ α} {x : κ} {left : List κ} (hs : j.stage = .running u (x :: left)) :
      Turn j c (.continues { j with stage := .running u left }) c [.performed (j.site u) x]
  | succeed {u : Work κ α} {a : α} (hs : j.stage = .running u []) (hu : u.outcome = .value a) :
      Turn j c (.continues { j with stage := .reporting u (.ok a) }) c []
  | fail {u : Work κ α} {e : ExecutionError} (hs : j.stage = .running u [])
      (hu : u.outcome = .failure e) :
      Turn j c (.continues { j with stage := .reporting u (.error e) }) c.raise []
  | panic {u : Work κ α} (hs : j.stage = .running u []) (hu : u.outcome = .panic) :
      Turn j c .panics c []
  | report {u : Work κ α} {result : Except ExecutionError α} (hs : j.stage = .reporting u result)
      (hl : c.isListening = true) :
      Turn j c (.continues { j with stage := .afterReport c.policy result })
        (c.deliver (.done u.position result)) [.reported (j.site u) (.done u.position result)]
  | reportSkip {u : Work κ α} (hs : j.stage = .skipping u) (hl : c.isListening = true) :
      Turn j c (.continues { j with stage := .checking }) (c.deliver (.skipped u.position))
        [.reported (j.site u) (.skipped u.position)]
  | drain {u : Work κ α} {rest : List (Work κ α)} (hs : j.stage = .draining)
      (hr : j.rest = u :: rest) (hl : c.isListening = true) :
      Turn j c (.continues { j with stage := .draining, rest })
        (c.deliver (.skipped u.position)) [.reported (j.site u) (.skipped u.position)]
  | drained (hs : j.stage = .draining) (hr : j.rest = []) : Turn j c .ends c []
  /-- Whoever made the call has gone, which a job finds out when it is about to report. -/
  | depart (hs : j.stage.todo = []) (hl : c.isListening = false) : Turn j c .ends c []

theorem report_listening {j : Job κ α} {u : Work κ α} {r : Report α} {next : Stage κ α}
    {c : Call κ α} (hl : c.isListening = true) :
    j.report History.note u r next c [] =
      (.continues { j with stage := next }, c.deliver r, [.reported (j.site u) r]) := by
  simp [report, hl, History.note]

theorem report_departed {j : Job κ α} {u : Work κ α} {r : Report α} {next : Stage κ α}
    {c : Call κ α} (hl : c.isListening = false) :
    j.report History.note u r next c [] = (.ends, c, []) := by
  simp [report, hl]

theorem advance_turn {j : Job κ α} {c c' : Call κ α} {p : Progress (Job κ α)} {os : History κ α}
    (h : j.advance History.note c [] = (p, c', os)) : Turn j c p c' os := by
  rcases j with ⟨call, batch, connection, stage, rest⟩
  cases stage with
  | checking =>
      cases rest with
      | nil =>
          cases h
          exact .done rfl rfl
      | cons u rest =>
          by_cases hskip : c.policy = .failFast ∧ c.abort
          · simp only [advance, hskip, and_self, if_true] at h
            cases h
            exact .skip rfl rfl hskip.1 hskip.2
          · simp only [advance, hskip, if_false] at h
            cases h
            exact .start rfl rfl (by simpa using hskip)
  | skipping u =>
      -- a report needs someone to take it
      cases hl : c.isListening with
      | true =>
          simp only [advance, report_listening hl] at h
          cases h
          exact .reportSkip rfl hl
      | false =>
          simp only [advance, report_departed hl] at h
          cases h
          exact .depart rfl hl
  | running u left =>
      cases left with
      | cons x left =>
          cases h
          exact .perform rfl
      | nil =>
          cases hu : u.outcome <;> simp only [advance, hu] at h <;> cases h
          · exact .succeed rfl hu
          · exact .fail rfl hu
          · exact .panic rfl hu
  | reporting u result =>
      -- with or without a failure, only the stage behind it differs
      cases hl : c.isListening with
      | true =>
          have hstage : (Job.mk call batch connection (.reporting u result) rest).stage =
              .reporting u result := rfl
          cases result with
          | ok a =>
              simp only [advance, report_listening hl] at h
              cases h
              exact .report hstage hl
          | error e =>
              simp only [advance, report_listening hl] at h
              cases h
              exact .report hstage hl
      | false =>
          cases result <;> simp only [advance, report_departed hl] at h <;> cases h
          · exact .depart rfl hl
          · exact .depart rfl hl
  | draining =>
      cases rest with
      | nil =>
          cases h
          exact .drained rfl rfl
      | cons u rest =>
          cases hl : c.isListening with
          | true =>
              simp only [advance, report_listening hl] at h
              cases h
              exact .drain rfl rfl hl
          | false =>
              simp only [advance, report_departed hl] at h
              cases h
              exact .depart rfl hl

namespace Turn

variable {j : Job κ α} {c c' : Call κ α} {p : Progress (Job κ α)} {os : History κ α}

theorem site_eq (h : Turn j c p c' os) :
    ∀ o ∈ os, o.site.call = j.call ∧ o.site.batch = j.batch := by
  cases h <;> simp [Occurrence.site, Job.site]

theorem left_eq (h : Turn j c p c' os) :
    ∀ j' ∈ p.left, j'.call = j.call ∧ j'.batch = j.batch := by
  cases h <;> simp [Progress.left]

/-- A job touches the flag and the inbox of its call, and nothing else. -/
theorem call_eq (h : Turn j c p c' os) :
    c' = { c with abort := c'.abort, inbox := c.inbox ++ History.channel os } := by
  cases h <;>
    simp [Call.raise, Call.deliver, History.channel, Occurrence.report?, List.filterMap_cons]

theorem phase_eq (h : Turn j c p c' os) : c'.phase = c.phase := by
  rw [h.call_eq]

theorem isListening_eq (h : Turn j c p c' os) : c'.isListening = c.isListening := by
  simp [Call.isListening, h.phase_eq]

/-- The flag stays as it is, or a unit that fails under fail-fast has raised it. -/
theorem abort_cases (h : Turn j c p c' os) :
    c'.abort = c.abort ∨ c'.abort = true ∧ c.policy = .failFast ∧
      ∃ u e, j.stage = .running u [] ∧ u.outcome = .failure e := by
  cases h with
  | @fail u e hs hu =>
      cases hpolicy : c.policy with
      | failFast => exact .inr ⟨by simp [Call.raise, hpolicy], rfl, u, e, hs, hu⟩
      | bestEffort => exact .inl (by simp [Call.raise, hpolicy])
  | done | skip | start | perform | succeed | panic | report | reportSkip | drain | drained
      | depart => exact .inl rfl

theorem abort_mono (h : Turn j c p c' os) (ha : c.abort = true) : c'.abort = true := by
  rcases h.abort_cases with hsame | ⟨hraised, -⟩
  · exact hsame.trans ha
  · exact hraised

end Turn

end Job

/-! ## Engines -/

namespace Engine

/-- The jobs of one call. -/
def jobsOf (e : Engine κ α ω) (k : Nat) : Multiset (Job κ α) :=
  e.pool.jobs.filter fun j => j.call = k

theorem jobsOf_eq_zero {e : Engine κ α ω} {k : Nat} :
    e.jobsOf k = 0 ↔ e.hasReporter k = false := by
  have hjobs : e.pool.jobs = ↑e.jobs := rfl
  simp [jobsOf, hasReporter, hjobs]

theorem callerStep?_turn {e e' : Engine κ α ω} {k : Nat} (h : e.callerStep? k = some e') :
    ∃ c c' new, e.calls[k]? = some c ∧ c.Turn k (e.jobsOf k = 0) c' new ∧
      e'.calls = e.calls.set k c' ∧ e.pool.Fed new e'.pool ∧ e'.world = e.world := by
  cases hc : e.calls[k]? with
  | none => simp [callerStep?, hc] at h
  | some c =>
      -- the step depends on the phase, and while gathering on the inbox
      rcases c with ⟨policy, queryId, total, phase, abort, inbox, slots, first, failed, received⟩
      simp only [callerStep?, hc, Option.bind_eq_bind, Option.bind_some] at h
      cases phase with
      | submitting left =>
          cases left with
          | nil =>
              cases h
              exact ⟨_, _, [], rfl, .listen rfl, rfl, .same, rfl⟩
          | cons b left =>
              cases h
              exact ⟨_, _, _, rfl, .submit rfl, rfl, .sent _, rfl⟩
      | counting left =>
          cases h
          exact ⟨_, _, [], rfl, .count rfl, rfl, .counted, rfl⟩
      | gathering =>
          cases inbox with
          | nil =>
              -- an empty inbox stops the caller only if no job is left
              cases hr : e.hasReporter k with
              | true => simp [hr] at h
              | false =>
                  simp only [hr, Bool.false_eq_true, if_false] at h
                  cases h
                  exact ⟨_, _, [], rfl, .stop rfl rfl (jobsOf_eq_zero.mpr hr), rfl, .same,
                    rfl⟩
          | cons r rest =>
              cases h
              exact ⟨_, _, [], rfl, .gather rfl rfl, rfl, .same, rfl⟩
      | returned answer => cases h
      | «over» => cases h

/-- A worker does pool work of its own, drops a job whose call is unknown, or moves a job. -/
theorem workerStep?_turn {note : Occurrence κ α → ω → ω} {e e' : Engine κ α ω} {w : Nat}
    (h : e.step? note (.worker w) = some e') :
    (e'.calls = e.calls ∧ e'.world = e.world ∧
      (e'.pool.jobs = e.pool.jobs ∨
        ∃ j, e.calls[j.call]? = none ∧ e.pool.jobs = j ::ₘ e'.pool.jobs)) ∨
      ∃ j others p c c' os, e.pool.jobs = j ::ₘ others ∧ e.calls[j.call]? = some c ∧
        j.Turn c p c' os ∧ e'.calls = e.calls.set j.call c' ∧
        e'.world = History.replay note os e.world ∧ e'.pool.jobs = ↑p.left + others := by
  simp only [step?, Option.map_eq_some_iff] at h
  rcases h with ⟨⟨pool, calls, world⟩, hwork, rfl⟩
  rcases (Pool.work?_shift hwork).jobs_cases with
    ⟨hjobs, hshared⟩ | ⟨j, others, p, -, hj, hadv, hleft⟩
  · cases hshared
    exact .inl ⟨rfl, rfl, .inl hjobs⟩
  · cases hc : e.calls[j.call]? with
    | none =>
        simp only [advance, hc] at hadv
        cases hadv
        refine .inl ⟨rfl, rfl, .inr ⟨j, hc, ?_⟩⟩
        simpa [Progress.left, hleft] using hj
    | some c =>
        simp only [advance, hc, j.advance_eq_replay note] at hadv
        cases hadv
        exact .inr ⟨j, others, _, c, _, _, hj, hc, Job.advance_turn rfl, rfl, rfl, hleft⟩

end Engine

end ScatterGather
