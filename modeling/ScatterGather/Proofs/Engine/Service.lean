import ScatterGather.Proofs.Engine.Progress
import ScatterGather.Proofs.Engine.Scatter

/-!
# Service — one engine for many calls

Calls begin at any time, on an engine that is busy with others, and answers are collected at any
time.  A call sees nothing of that but the wait for a worker.

* `Engine.act?` : all that can happen to an engine, one step each;
* `Engine.InService` : the pool serves, and every job belongs to a call;
* `Engine.Serves` : the states of an engine in which a given task was begun;
* `Engine.Serves.valid` : the invariant of a call holds in all of them;
* `Engine.Serves.return_inevitable` : and from each of them the call returns.
-/

namespace ScatterGather

variable {κ α ω : Type}

inductive Action (κ α : Type)
  | begin (policy : Policy) (queryId : Nat) (batches : List (Batch κ α))
  | move (m : Move)
  | collect (call : Nat)

namespace Engine

def act? (note : Occurrence κ α → ω → ω) (e : Engine κ α ω) : Action κ α → Option (Engine κ α ω)
  | .begin policy queryId batches => some (e.start (.new policy queryId batches))
  | .move m => e.step? note m
  | .collect call => (e.collect call).map Prod.snd

/-- The answer that waits to be collected. -/
def answer? (e : Engine κ α ω) (call : Nat) : Option (Answer α) :=
  e.calls[call]?.bind Call.answer?

/-- All that has happened to one call. -/
def historyOf (e : Engine κ α (History κ α)) (call : Nat) : History κ α :=
  History.ofCall call e.world

theorem collect_eq_some {e e' : Engine κ α ω} {n : Nat} {answer : Answer α}
    (h : e.collect n = some (answer, e')) :
    ∃ c, e.calls[n]? = some c ∧ c.phase = .returned answer ∧
      e' = e.setCall n { c with phase := .over } := by
  cases hc : e.calls[n]? with
  | none => simp [collect, hc] at h
  | some c =>
      cases hp : c.phase with
      | returned answer' =>
          simp only [collect, hc, Call.answer?, hp, Option.bind_eq_bind, Option.bind_some,
            Option.some.injEq, Prod.mk.injEq] at h
          rcases h with ⟨rfl, rfl⟩
          exact ⟨c, rfl, hp, rfl⟩
      | submitting left => simp [collect, hc, Call.answer?, hp] at h
      | counting left => simp [collect, hc, Call.answer?, hp] at h
      | gathering => simp [collect, hc, Call.answer?, hp] at h
      | «over» => simp [collect, hc, Call.answer?, hp] at h

theorem collect_of_returned {e : Engine κ α ω} {n : Nat} {c : Call κ α} {answer : Answer α}
    (hc : e.calls[n]? = some c) (hp : c.phase = .returned answer) :
    e.collect n = some (answer, e.setCall n { c with phase := .over }) := by
  simp [collect, hc, Call.answer?, hp]

/-! ## Engines in service -/

structure InService (e : Engine κ α ω) : Prop where
  serving : e.pool.Serving
  known : ∀ j ∈ e.pool.jobs, j.call < e.calls.length

theorem inService_new (threads : Nat) (world : ω) :
    (Engine.new threads world : Engine κ α ω).InService := by
  refine ⟨Pool.serving_new threads, ?_⟩
  intro j hj
  have hnone : (Pool.new threads : Pool (Job κ α)).jobs = 0 := Pool.jobs_new threads
  have hjobs : j ∈ (Pool.new threads : Pool (Job κ α)).jobs := hj
  simp [hnone] at hjobs

namespace InService

variable {note : Occurrence κ α → ω → ω} {e e' : Engine κ α ω}

theorem start (h : e.InService) (c : Call κ α) : (e.start c).InService := by
  refine ⟨h.serving, ?_⟩
  intro j hj
  have hlt : j.call < e.calls.length := h.known j hj
  simp only [Engine.start, List.length_append]
  omega

theorem step {m : Move} (h : e.InService) (hstep : e.step? note m = some e') :
    e'.InService ∧ e'.calls.length = e.calls.length := by
  have hserving := step?_serving h.serving hstep
  cases m with
  | caller k =>
      rcases callerStep?_turn hstep with ⟨c, c', new, hc, hturn, hcalls, hfed, -⟩
      have hlength : e'.calls.length = e.calls.length := by simp [hcalls]
      refine ⟨⟨hserving, ?_⟩, hlength⟩
      intro j hj
      rw [hfed.jobs_eq] at hj
      rw [hlength]
      rcases Multiset.mem_add.mp hj with hnew | hold
      · have hk : k < e.calls.length := (List.getElem?_eq_some_iff.mp hc).1
        -- a job that was just sent is one of the call that sent it
        have hcall : j.call = k := by
          cases hturn with
          | submit hp => simpa [Job.ofBatch] using congrArg Job.call (List.mem_singleton.mp hnew)
          | count | listen | gather | stop => cases hnew
        exact hcall ▸ hk
      · exact h.known j hold
  | worker w =>
      rcases workerStep?_turn hstep with
        ⟨hcalls, -, hsame | ⟨j, -, hdrop⟩⟩ |
          ⟨j, others, p, c, c', os, hj, -, hturn, hcalls, -, hpool⟩
      · refine ⟨⟨hserving, ?_⟩, by rw [hcalls]⟩
        intro j hj
        rw [hcalls]
        exact h.known j (hsame ▸ hj)
      · refine ⟨⟨hserving, ?_⟩, by rw [hcalls]⟩
        intro j' hj'
        rw [hcalls]
        exact h.known j' (hdrop ▸ Multiset.mem_cons_of_mem hj')
      · have hlength : e'.calls.length = e.calls.length := by simp [hcalls]
        refine ⟨⟨hserving, ?_⟩, hlength⟩
        intro j' hj'
        rw [hpool] at hj'
        rw [hlength]
        rcases Multiset.mem_add.mp hj' with hleft | hother
        · rw [(hturn.left_eq j' hleft).1]
          exact h.known j (by simp [hj])
        · exact h.known j' (by simp [hj, hother])

theorem act {a : Action κ α} (h : e.InService) (hact : e.act? note a = some e') :
    e'.InService := by
  cases a with
  | begin policy queryId batches =>
      cases hact
      exact h.start _
  | move m => exact (h.step hact).1
  | collect n =>
      rcases Option.map_eq_some_iff.mp hact with ⟨⟨answer, e₁⟩, hcollect, rfl⟩
      rcases collect_eq_some hcollect with ⟨c, hc, hp, rfl⟩
      refine ⟨h.serving, ?_⟩
      intro j hj
      have hlt : j.call < e.calls.length := h.known j hj
      simpa [setCall] using hlt

end InService

/-! ## The share of a call -/

theorem share?_start {e : Engine κ α (History κ α)} (c : Call κ α) (h : e.InService)
    (hfresh : History.ofCall e.calls.length e.world = []) :
    (e.start c).share? e.calls.length = some { call := c, jobs := 0, history := [] } := by
  -- no job can be of a call that has not begun
  have hnone : e.jobsOf e.calls.length = 0 := by
    apply Multiset.filter_eq_nil.mpr
    intro j hj
    exact Nat.ne_of_lt (h.known j hj)
  refine share?_eq_some.mpr ⟨?_, hnone.symm, hfresh.symm⟩
  simp [Engine.start]

/-- Whatever happens to an engine does to the share of a call what the share does by itself, or
nothing. -/
theorem share?_act {e e' : Engine κ α (History κ α)} {a : Action κ α} {k : Nat} {s : Share κ α}
    (h : e.act? History.note a = some e') (hs : e.share? k = some s) :
    ∃ s', e'.share? k = some s' ∧ (s' = s ∨ s.Step k s') := by
  rcases share?_eq_some.mp hs with ⟨hcall, hjobs, hhistory⟩
  cases a with
  | move m => exact share?_step h hs
  | begin policy queryId batches =>
      cases h
      refine ⟨s, share?_eq_some.mpr ⟨?_, hjobs, hhistory⟩, .inl rfl⟩
      have hlt : k < e.calls.length := (List.getElem?_eq_some_iff.mp hcall).1
      simpa [Engine.start, List.getElem?_append_left hlt] using hcall
  | collect n =>
      rcases Option.map_eq_some_iff.mp h with ⟨⟨answer, e₁⟩, hcollect, rfl⟩
      rcases collect_eq_some hcollect with ⟨c, hc, hp, rfl⟩
      -- collecting another answer does not show
      by_cases hnk : n = k
      · subst hnk
        have hsame : c = s.call := Option.some.inj (hc.symm.trans hcall)
        subst hsame
        have hlt : n < e.calls.length := (List.getElem?_eq_some_iff.mp hcall).1
        refine ⟨{ s with call := { s.call with phase := .over } },
          share?_eq_some.mpr ⟨?_, hjobs, hhistory⟩, .inr (.collect hp)⟩
        simp [setCall, hlt]
      · refine ⟨s, share?_eq_some.mpr ⟨?_, hjobs, hhistory⟩, .inl rfl⟩
        simpa [setCall, List.getElem?_set_ne hnk] using hcall

/-- What the steps of a call keep is kept by whatever happens to its engine. -/
theorem share?_run {P : Share κ α → Prop} {e e' : Engine κ α (History κ α)} {k : Nat}
    (keeps : ∀ {s s' : Share κ α}, P s → s.Step k s' → P s')
    (h : Run (act? History.note) e e') (hs : ∃ s, e.share? k = some s ∧ P s) :
    ∃ s, e'.share? k = some s ∧ P s := by
  refine Run.preserves (P := fun e => ∃ s, e.share? k = some s ∧ P s) ?_ h hs
  rintro e e' a ⟨s, hs, hP⟩ hact
  rcases share?_act hact hs with ⟨s', hs', rfl | hstep⟩
  · exact ⟨s', hs', hP⟩
  · exact ⟨s', hs', keeps hP hstep⟩

/-! ## Tasks in service -/

/-- The engine, once new with so many workers, has at some time begun the task. -/
def Serves (threads : Nat) (t : Task κ α) (e : Engine κ α (History κ α)) : Prop :=
  ∃ e₀, Run (act? History.note) (Engine.new threads []) e₀ ∧ t.call = e₀.calls.length ∧
    Run (act? History.note) (e₀.start t.start) e

/-- Nothing happens to a call before it begins. -/
theorem sites_of_run {threads : Nat} {e : Engine κ α (History κ α)}
    (h : Run (act? History.note) (Engine.new threads []) e) :
    e.InService ∧ ∀ o ∈ e.world, o.site.call < e.calls.length := by
  refine Run.preserves (P := fun e : Engine κ α (History κ α) =>
    e.InService ∧ ∀ o ∈ e.world, o.site.call < e.calls.length) ?_ h
      ⟨inService_new threads [], by simp [Engine.new]⟩
  rintro e e' a ⟨hservice, hsites⟩ hact
  refine ⟨hservice.act hact, ?_⟩
  cases a with
  | begin policy queryId batches =>
      cases hact
      intro o ho
      have hlt := hsites o ho
      simp only [Engine.start, List.length_append]
      omega
  | collect n =>
      rcases Option.map_eq_some_iff.mp hact with ⟨⟨answer, e₁⟩, hcollect, rfl⟩
      rcases collect_eq_some hcollect with ⟨c, hc, hp, rfl⟩
      simpa [setCall] using hsites
  | move m =>
      have hstep : e.step? History.note m = some e' := hact
      rw [(hservice.step hstep).2]
      cases m with
      | caller k =>
          rcases callerStep?_turn hstep with ⟨c, c', new, -, -, -, -, hworld⟩
          rw [hworld]
          exact hsites
      | worker w =>
          rcases workerStep?_turn hstep with
            ⟨-, hworld, -⟩ | ⟨j, others, p, c, c', os, hj, -, hturn, -, hworld, -⟩
          · rw [hworld]
            exact hsites
          · rw [hworld, History.replay_note]
            intro o ho
            rcases List.mem_append.mp ho with ho | ho
            · exact hsites o ho
            · rw [(hturn.site_eq o ho).1]
              exact hservice.known j (by simp [hj])

/-- A run from the first call of a new engine on. -/
theorem Serves.of_moves {threads : Nat} {t : Task κ α} {e : Engine κ α (History κ α)}
    {acts : List (Action κ α)} (hcall : t.call = 0)
    (h : acts.foldlM (act? History.note) ((Engine.new threads []).start t.start) = some e) :
    e.Serves threads t :=
  ⟨_, .refl, hcall, Run.of_moves h⟩

namespace Serves

variable {threads : Nat} {t : Task κ α} {e : Engine κ α (History κ α)}

/-- What holds of a call before its first step, and what its steps keep, holds at any time. -/
theorem share {P : Share κ α → Prop} (h : e.Serves threads t)
    (start : P { call := t.start, jobs := 0, history := [] })
    (keeps : ∀ {s s' : Share κ α}, P s → s.Step t.call s' → P s') :
    ∃ s, e.share? t.call = some s ∧ P s := by
  rcases h with ⟨e₀, hpast, hcall, hrun⟩
  rcases sites_of_run hpast with ⟨hservice, hsites⟩
  have hfresh : History.ofCall e₀.calls.length e₀.world = [] :=
    History.ofCall_of_ne _ fun o ho => Nat.ne_of_lt (hsites o ho)
  exact share?_run keeps hrun ⟨_, hcall ▸ share?_start t.start hservice hfresh, start⟩

theorem valid (h : e.Serves threads t) : ∃ s, e.share? t.call = some s ∧ s.Valid t :=
  h.share (Share.Valid.start t) Share.Valid.step

theorem inService (h : e.Serves threads t) : e.InService := by
  rcases h with ⟨e₀, hpast, -, hrun⟩
  exact Run.preserves InService.act hrun ((sites_of_run hpast).1.start t.start)

/-- A call that has returned has an answer and a reason for it. -/
theorem returned (h : e.Serves threads t) (hr : e.isReturned t.call = true) :
    ∃ (s : Share κ α) (answer : Answer α), s.history = e.historyOf t.call ∧ s.Valid t ∧
      s.Answered t answer ∧ (s.call.phase = .returned answer ∨ s.call.phase = .over) ∧
      e.answer? t.call = s.call.answer? := by
  rcases h.valid with ⟨s, hs, v⟩
  rcases share?_eq_some.mp hs with ⟨hcall, -, hhistory⟩
  have hdeaf : s.call.isListening = false := by
    cases hp : s.call.phase with
    | submitting left => simp [isReturned, hcall, Call.isReturned, hp] at hr
    | counting left => simp [isReturned, hcall, Call.isReturned, hp] at hr
    | gathering => simp [isReturned, hcall, Call.isReturned, hp] at hr
    | returned answer => simp [Call.isListening, hp]
    | «over» => simp [Call.isListening, hp]
  -- whoever does not listen any more has an answer
  rcases v.answered hdeaf with ⟨answer, hanswered, hphase⟩
  exact ⟨s, answer, hhistory, v, hanswered, hphase, by simp [answer?, hcall]⟩

theorem answered (h : e.Serves threads t) {answer : Answer α}
    (ha : e.answer? t.call = some answer) :
    ∃ s : Share κ α, s.history = e.historyOf t.call ∧ s.Valid t ∧ s.Answered t answer := by
  have hr : e.isReturned t.call = true := by
    cases hc : e.calls[t.call]? with
    | none => simp [isReturned, hc]
    | some c => cases hp : c.phase <;> simp_all [isReturned, answer?, Call.answer?, Call.isReturned]
  rcases h.returned hr with ⟨s, answer', hhistory, v, hanswered, hphase, hsame⟩
  rw [hsame] at ha
  rcases hphase with hphase | hphase
  · simp only [Call.answer?, hphase, Option.some.injEq] at ha
    exact ⟨s, hhistory, v, ha ▸ hanswered⟩
  · simp [Call.answer?, hphase] at ha

/-- However the workers and the callers take turns, the call returns. -/
theorem return_inevitable (h : e.Serves threads t) :
    Inevitable (step? History.note) (fun e => e.isReturned t.call = true) e :=
  Engine.return_inevitable h.inService.serving t.call

end Serves

end Engine

end ScatterGather
