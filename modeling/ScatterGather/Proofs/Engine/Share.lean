import ScatterGather.Proofs.Engine.Turn

/-!
# Share — what one call sees of an engine

Calls share the workers and the queue and nothing else.  The share of a call is its own record, its
jobs wherever they wait or run, and what has happened to its units.  A step of the engine leaves
that alone or is one of the few steps that a share makes; on which worker a job runs, and what
other calls do in between, does not show.

* `Share.Step` : the steps of one call and its jobs;
* `Engine.share?` : the share of a call in an engine that records everything;
* `Engine.share?_step` : an engine does to a share what a share does by itself, or nothing.
-/

namespace ScatterGather

variable {κ α : Type}

structure Share (κ α : Type) where
  call : Call κ α
  /-- The jobs of the call that are not over. -/
  jobs : Multiset (Job κ α)
  history : History κ α

namespace Share

/-- The steps of call number `k`: its caller moves, its answer is collected, or one of its jobs
moves. -/
inductive Step (k : Nat) (s : Share κ α) : Share κ α → Prop
  | call {c : Call κ α} {new : List (Job κ α)} (ht : s.call.Turn k (s.jobs = 0) c new) :
      Step k s { s with call := c, jobs := ↑new + s.jobs }
  | collect {answer : Answer α} (hp : s.call.phase = .returned answer) :
      Step k s { s with call := { s.call with phase := .over } }
  | work {j : Job κ α} {others : Multiset (Job κ α)} {p : Progress (Job κ α)} {c : Call κ α}
      {os : History κ α} (hj : s.jobs = j ::ₘ others) (ht : j.Turn s.call p c os) :
      Step k s { call := c, jobs := ↑p.left + others, history := s.history ++ os }

end Share

namespace Engine

def share? (e : Engine κ α (History κ α)) (k : Nat) : Option (Share κ α) :=
  e.calls[k]?.map fun c => { call := c, jobs := e.jobsOf k, history := History.ofCall k e.world }

theorem share?_eq_some {e : Engine κ α (History κ α)} {k : Nat} {s : Share κ α} :
    e.share? k = some s ↔ e.calls[k]? = some s.call ∧ s.jobs = e.jobsOf k ∧
      s.history = History.ofCall k e.world := by
  rcases s with ⟨call, jobs, history⟩
  constructor
  · intro h
    rcases Option.map_eq_some_iff.mp h with ⟨c, hc, hs⟩
    cases hs
    exact ⟨hc, rfl, rfl⟩
  · rintro ⟨hc, rfl, rfl⟩
    simp [share?, hc]

/-- The caller of another call sends no jobs of this one. -/
theorem share?_of_otherCaller {e e' : Engine κ α (History κ α)} {n k : Nat} (hn : n ≠ k)
    (hstep : e.callerStep? n = some e') : e'.share? k = e.share? k := by
  rcases callerStep?_turn hstep with ⟨c, c', new, -, hturn, hcalls, hfed, hworld⟩
  have hnew : new.filter (fun j => j.call = k) = [] := by
    cases hturn <;> simp [Job.ofBatch, hn]
  have hjobs : e'.jobsOf k = e.jobsOf k := by
    simp only [jobsOf, hfed.jobs_eq, Multiset.filter_add, Multiset.filter_coe, hnew,
      Multiset.coe_nil, zero_add]
  rw [share?, share?, hcalls, List.getElem?_set_ne hn, hjobs, hworld]

/-- What a step of a caller does to the share of a call. -/
theorem share?_caller {e e' : Engine κ α (History κ α)} {n k : Nat} {s : Share κ α}
    (h : e.callerStep? n = some e') (hs : e.share? k = some s) :
    ∃ s', e'.share? k = some s' ∧ (s' = s ∨ s.Step k s') := by
  by_cases hnk : n = k
  · subst hnk
    rcases share?_eq_some.mp hs with ⟨hcall, hjobs, hhistory⟩
    rcases callerStep?_turn h with ⟨c, c', new, hc, hturn, hcalls, hfed, hworld⟩
    have hpool := hfed.jobs_eq
    have hsame : c = s.call := Option.some.inj (hc.symm.trans hcall)
    subst hsame
    have hlt : n < e.calls.length := (List.getElem?_eq_some_iff.mp hcall).1
    -- the caller of this call: all jobs that it sends are jobs of the call
    have hnew : new.filter (fun j => j.call = n) = new := by
      cases hturn <;> simp [Job.ofBatch]
    refine ⟨{ s with call := c', jobs := ↑new + s.jobs }, share?_eq_some.mpr ⟨?_, ?_, ?_⟩, .inr ?_⟩
    · simp [hcalls, hlt]
    · simp only [jobsOf, hpool, Multiset.filter_add, Multiset.filter_coe, hnew, hjobs]
    · simp only [hworld, hhistory]
    · exact .call (hjobs ▸ hturn)
  · exact ⟨s, (share?_of_otherCaller hnk h).trans hs, .inl rfl⟩

/-- What a step of a worker does to the share of a call. -/
theorem share?_worker {e e' : Engine κ α (History κ α)} {w k : Nat} {s : Share κ α}
    (h : e.step? History.note (.worker w) = some e') (hs : e.share? k = some s) :
    ∃ s', e'.share? k = some s' ∧ (s' = s ∨ s.Step k s') := by
  rcases share?_eq_some.mp hs with ⟨hcall, hjobs, hhistory⟩
  rcases workerStep?_turn h with
    ⟨hcalls, hworld, hsame | ⟨j, hnone, hdrop⟩⟩ |
      ⟨j, others, p, c, c', os, hj, hc, hturn, hcalls, hworld, hpool⟩
  · refine ⟨s, share?_eq_some.mpr ⟨?_, ?_, ?_⟩, .inl rfl⟩
    · rw [hcalls, hcall]
    · rw [hjobs, jobsOf, jobsOf, hsame]
    · rw [hhistory, hworld]
  · have hne : j.call ≠ k := by
      rintro rfl
      rw [hcall] at hnone
      cases hnone
    -- a job without a call cannot be one of this call
    refine ⟨s, share?_eq_some.mpr ⟨?_, ?_, ?_⟩, .inl rfl⟩
    · rw [hcalls, hcall]
    · simp [hjobs, jobsOf, hdrop, hne]
    · rw [hhistory, hworld]
  · have hworld' : e'.world = e.world ++ os := by rw [hworld, History.replay_note]
    by_cases hjk : j.call = k
    · have hsame : c = s.call := Option.some.inj (hc.symm.trans (hjk ▸ hcall))
      subst hsame
      -- a job of this call: what it leaves and what it shows stays with the call
      have hlt : k < e.calls.length := (List.getElem?_eq_some_iff.mp hcall).1
      have hleft : p.left.filter (fun j => j.call = k) = p.left := by
        simpa [List.filter_eq_self] using fun j' hj' => (hturn.left_eq j' hj').1.trans hjk
      have hos : History.ofCall k os = os :=
        History.ofCall_of_site os fun o ho => (hturn.site_eq o ho).1.trans hjk
      refine ⟨⟨c', ↑p.left + others.filter (fun j => j.call = k), s.history ++ os⟩,
        share?_eq_some.mpr ⟨?_, ?_, ?_⟩, .inr (.work ?_ hturn)⟩
      · simp [hcalls, hjk, hlt]
      · simp only [jobsOf, hpool, Multiset.filter_add, Multiset.filter_coe, hleft]
      · simp only [hworld', History.ofCall_append, hos, hhistory]
      · simp [hjobs, jobsOf, hj, hjk]
    · -- a job of another call: all of that is with the other call
      have hleft : p.left.filter (fun j => j.call = k) = [] := by
        simpa [List.filter_eq_nil_iff] using
          fun j' hj' => (hturn.left_eq j' hj').1 ▸ hjk
      have hos : History.ofCall k os = [] :=
        History.ofCall_of_ne os fun o ho => (hturn.site_eq o ho).1 ▸ hjk
      refine ⟨s, share?_eq_some.mpr ⟨?_, ?_, ?_⟩, .inl rfl⟩
      · simpa [hcalls, List.getElem?_set_ne hjk] using hcall
      · simp [hjobs, jobsOf, hj, hpool, Multiset.filter_add, Multiset.filter_coe, hleft, hjk]
      · simp only [hworld', History.ofCall_append, hos, hhistory, List.append_nil]

/-- An engine does to the share of a call what the share does by itself, or nothing. -/
theorem share?_step {e e' : Engine κ α (History κ α)} {m : Move} {k : Nat} {s : Share κ α}
    (h : e.step? History.note m = some e') (hs : e.share? k = some s) :
    ∃ s', e'.share? k = some s' ∧ (s' = s ∨ s.Step k s') := by
  cases m with
  | caller n => exact share?_caller h hs
  | worker w => exact share?_worker h hs

end Engine

end ScatterGather
