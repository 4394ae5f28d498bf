import ScatterGather.Proofs.Engine.Gathering
import ScatterGather.Proofs.Engine.Share

/-!
# Scatter — the invariant of a call, from its first batch to its last job

At every moment each batch of a call is still to be sent, has exactly one job, or is through, and in
each case its lane says what it has done.  The caller knows what it can know from the reports that
it took, and the flag is up only if a unit has failed.

* `Task` : a call by its number, its policy and its batches;
* `Share.Valid` : the invariant;
* `Share.Valid.start`, `Share.Valid.step` : a call starts with it, and every step keeps it.
-/

namespace ScatterGather

variable {κ α : Type}

/-! ## Tasks -/

/-- What a call is asked to do, and the number that it has in its engine. -/
structure Task (κ α : Type) where
  call : Nat
  policy : Policy
  queryId : Nat
  batches : List (Batch κ α)

namespace Task

variable (t : Task κ α)

def units : List (Work κ α) :=
  t.batches.flatMap (·.units)

def total : Nat :=
  t.units.length

/-- The call before its first step. -/
def start : Call κ α :=
  .new t.policy t.queryId t.batches

def lane (i : Nat) (b : Batch κ α) : Lane κ α :=
  { call := t.call, batch := i, policy := t.policy, units := b.units }

end Task

/-! ## The invariant -/

/-- The batches that are still to be sent. -/
def Phase.left : Phase κ α → List (Nat × Batch κ α)
  | submitting left => left
  | counting left => left
  | _ => []

section

variable (left : List (Nat × Batch κ α)) (answer : Answer α)

@[simp] theorem Phase.left_submitting : (submitting left : Phase κ α).left = left := rfl

@[simp] theorem Phase.left_counting : (counting left : Phase κ α).left = left := rfl

@[simp] theorem Phase.left_gathering : (gathering : Phase κ α).left = [] := rfl

@[simp] theorem Phase.left_returned : (returned answer : Phase κ α).left = [] := rfl

@[simp] theorem Phase.left_over : (Phase.over : Phase κ α).left = [] := rfl

end

namespace Share

/-- The lane of a batch that has no job, as it was when its job came to an end. -/
def Through (s : Share κ α) (l : Lane κ α) : Prop :=
  ∃ stage rest, l.At s.call.abort stage rest (History.trail l.batch s.history) ∧
    (Lane.Ended stage rest ∨ s.call.isListening = false)

/-- All batches came to an end of their own. -/
def Finished (s : Share κ α) (t : Task κ α) : Prop :=
  ∀ i b, t.batches[i]? = some b → ∃ stage rest,
    (t.lane i b).At s.call.abort stage rest (History.trail i s.history) ∧ Lane.Ended stage rest

/-- The reports of all units that can report, `got`, were taken, and some units are missing. -/
structure Stopped (s : Share κ α) (t : Task κ α) (got : List (Report α)) : Prop where
  missing : got.length < t.total
  calm : t.policy = .failFast → ∀ r ∈ got, r.isFailure = false
  inRange : ∀ position a, .done position (.ok a) ∈ got → position < t.total
  channel : History.channel s.history = got
  jobs : s.jobs = 0
  finished : s.Finished t

/-- Why a call has given its answer: by the verdict on reports that it took, or for want of
reports. -/
inductive Answered (s : Share κ α) (t : Task κ α) : Answer α → Prop
  | verdict {got lost : List (Report α)} {answer : Answer α}
      (verdict : Verdict t.policy t.total got answer)
      (channel : History.channel s.history = got ++ lost) : Answered s t answer
  | stopped {got : List (Report α)} (stopped : s.Stopped t got) :
      Answered s t (.error (.bug (.workerStopped t.queryId got.length t.total)))

/-- What holds of a call at any time. -/
structure Valid (t : Task κ α) (s : Share κ α) : Prop where
  policy : s.call.policy = t.policy
  queryId : s.call.queryId = t.queryId
  total : s.call.total = t.total
  /-- No batch is both still to be sent and with a job, or with two jobs. -/
  distinct : ((s.call.phase.left.map Prod.fst : Multiset Nat) + s.jobs.map Job.batch).Nodup
  waiting : ∀ i b, (i, b) ∈ s.call.phase.left →
    t.batches[i]? = some b ∧ History.trail i s.history = []
  working : ∀ j ∈ s.jobs, j.call = t.call ∧ ∃ b, t.batches[j.batch]? = some b ∧
    (t.lane j.batch b).At s.call.abort j.stage j.rest (History.trail j.batch s.history)
  through : ∀ i b, t.batches[i]? = some b → i ∉ s.call.phase.left.map Prod.fst →
    (∀ j ∈ s.jobs, j.batch ≠ i) → s.Through (t.lane i b)
  sites : ∀ o ∈ s.history, o.site.call = t.call ∧ o.site.batch < t.batches.length
  /-- Some unit that has started is one that fails. -/
  raised : s.call.abort = true → t.policy = .failFast ∧
    ∃ i b front u back e, t.batches[i]? = some b ∧ b.units = front ++ u :: back ∧
      u.outcome = .failure e ∧
      front.length < (History.starts (History.trail i s.history)).length
  listening : s.call.isListening = true → ∃ got, s.call.Tallied got ∧
    got.length < t.total ∧ History.channel s.history = got ++ s.call.inbox
  answered : s.call.isListening = false → ∃ answer, s.Answered t answer ∧
    (s.call.phase = .returned answer ∨ s.call.phase = .over)

/-- The reasons for an answer do not change while only the caller moves. -/
theorem Answered.of_abort {s : Share κ α} {t : Task κ α} {c : Call κ α} {answer : Answer α}
    (habort : c.abort = s.call.abort) (h : s.Answered t answer) :
    Answered { s with call := c } t answer := by
  cases h with
  | verdict verdict channel => exact .verdict verdict channel
  | stopped stopped =>
      refine .stopped { stopped with finished := ?_ }
      simpa only [Finished, habort] using stopped.finished

namespace Valid

variable {t : Task κ α} {s : Share κ α}

/-- Every call starts with the invariant. -/
theorem start (t : Task κ α) : Valid t { call := t.start, jobs := 0, history := [] } := by
  -- a call without units has returned before its first step
  by_cases hzero : t.total = 0
  · have hphase : t.start.phase = .returned (.ok []) := by
      simp [Task.start, Call.new, show (t.batches.flatMap (·.units)).length = 0 from hzero]
    have hempty : ∀ (i : Nat) (b : Batch κ α), t.batches[i]? = some b → b.units = [] := by
      intro i b hb
      have hmem : b ∈ t.batches := List.mem_of_getElem? hb
      have hnil : t.units = [] := List.eq_nil_of_length_eq_zero hzero
      simpa using List.flatMap_eq_nil_iff.mp hnil b hmem
    -- its batches hold nothing, so they are through although they were never sent
    have hchecking : ∀ i b, t.batches[i]? = some b →
        (t.lane i b).At t.start.abort .checking [] (History.trail i []) := by
      intro i b hb
      have hfresh := (t.lane i b).at_fresh t.start.abort
      rwa [show (t.lane i b).units = [] from hempty i b hb] at hfresh
    refine ⟨rfl, rfl, rfl, by simp [hphase], by simp [hphase], by simp,
      ?_, by simp, by simp [Task.start, Call.new], by simp [Call.isListening, hphase], ?_⟩
    · intro i b hb _ _
      exact ⟨_, _, hchecking i b hb, .inl .checking⟩
    · intro _
      have hverdict : Verdict t.policy t.total ([] : List (Report α))
          (.ok (List.replicate t.total none)) :=
        .complete (by simp [hzero]) (by simp) (by simp)
      have hnone : History.channel ([] : History κ α) = [] ++ [] := rfl
      exact ⟨.ok [], .verdict (by simpa [hzero] using hverdict) hnone, .inl hphase⟩
  · have hphase : t.start.phase = .submitting (t.batches.zipIdx.map Prod.swap) := if_neg hzero
    have hleft : ∀ i b, (i, b) ∈ t.start.phase.left ↔ t.batches[i]? = some b := by
      intro i b
      simp [hphase, List.mem_zipIdx_iff_getElem?]
    -- any other call has all its batches still to send
    have hindices : t.start.phase.left.map Prod.fst = List.range t.batches.length := by
      simp [hphase, Function.comp_def, List.range_eq_range']
    refine ⟨rfl, rfl, rfl, ?_, ?_, by simp, ?_, by simp, by simp [Task.start, Call.new], ?_,
      by simp [Call.isListening, hphase]⟩
    · simpa [hindices] using List.nodup_range
    · intro i b hmem
      exact ⟨(hleft i b).mp hmem, rfl⟩
    · intro i b hb hnot _
      exact absurd (List.mem_map.mpr ⟨_, (hleft i b).mpr hb, rfl⟩) hnot
    · intro _
      exact ⟨[], ⟨rfl, Nat.zero_le _, rfl, rfl, rfl, by simp, by simp⟩,
        Nat.pos_of_ne_zero hzero, rfl⟩

/-- A caller that sends nothing leaves all lanes as they are. -/
theorem of_caller {c : Call κ α} (v : s.Valid t) (hpolicy : c.policy = s.call.policy)
    (hqueryId : c.queryId = s.call.queryId) (htotal : c.total = s.call.total)
    (habort : c.abort = s.call.abort) (hleft : c.phase.left = s.call.phase.left)
    (hdeaf : s.call.isListening = false → c.isListening = false)
    (listening : c.isListening = true → ∃ got, c.Tallied got ∧ got.length < t.total ∧
      History.channel s.history = got ++ c.inbox)
    (answered : c.isListening = false → ∃ answer, s.Answered t answer ∧
      (c.phase = .returned answer ∨ c.phase = .over)) :
    Valid t { s with call := c } where
  policy := hpolicy.trans v.policy
  queryId := hqueryId.trans v.queryId
  total := htotal.trans v.total
  distinct := by simpa only [hleft] using v.distinct
  waiting := by simpa only [hleft] using v.waiting
  working := by simpa only [habort] using v.working
  through := by
    intro i b hb hnot hjobs
    rcases v.through i b hb (by simpa only [hleft] using hnot) hjobs with
      ⟨stage, rest, hat, hend⟩
    exact ⟨stage, rest, by simpa only [habort] using hat, hend.imp id hdeaf⟩
  sites := v.sites
  raised := by simpa only [habort] using v.raised
  listening := listening
  answered := by
    intro hc
    rcases answered hc with ⟨answer, hanswered, hphase⟩
    exact ⟨answer, hanswered.of_abort habort, hphase⟩

/-- A caller sends a batch: the batch gets its job. -/
theorem submit {i : Nat} {b : Batch κ α} {left : List (Nat × Batch κ α)} (v : s.Valid t)
    (hp : s.call.phase = .submitting ((i, b) :: left)) :
    Valid t { s with
      call := { s.call with phase := .counting left }
      jobs := .ofBatch t.call i b ::ₘ s.jobs } := by
  have hleft : s.call.phase.left = (i, b) :: left := by simp [hp]
  have hlisten : s.call.isListening = true := by simp [Call.isListening, hp]
  -- the number of the batch moves from those to be sent to those with a job
  have hdistinct : ((i ::ₘ (left.map Prod.fst : Multiset Nat)) + s.jobs.map Job.batch).Nodup := by
    simpa [hleft] using v.distinct
  have hb := v.waiting i b (by simp [hleft])
  refine ⟨v.policy, v.queryId, v.total, ?_, ?_, ?_, ?_, v.sites, v.raised, ?_, ?_⟩
  · have hmove : (left.map Prod.fst : Multiset Nat) + (i ::ₘ s.jobs.map Job.batch) =
        (i ::ₘ (left.map Prod.fst : Multiset Nat)) + s.jobs.map Job.batch := by
      rw [Multiset.add_cons, Multiset.cons_add]
    simpa [Job.ofBatch, hmove] using hdistinct
  · intro i' b' hmem
    exact v.waiting i' b' (by simpa [hleft] using .inr hmem)
  · intro j hj
    rcases Multiset.mem_cons.mp hj with rfl | hj
    · refine ⟨rfl, b, hb.1, ?_⟩
      have hfresh := (t.lane i b).at_fresh s.call.abort
      simpa [Job.ofBatch, hb.2, Task.lane] using hfresh
    · exact v.working j hj
  · intro i' b' hb' hnot hjobs
    -- a batch that is through is not the one that was sent
    have hne : i ≠ i' := hjobs _ (Multiset.mem_cons_self _ _)
    rcases v.through i' b' hb' (by simpa [hleft, hne.symm] using hnot)
      (fun j hj => hjobs j (Multiset.mem_cons_of_mem hj)) with ⟨stage, rest, hat, hend⟩
    exact ⟨stage, rest, hat, hend.imp id (by simp [hlisten])⟩
  · intro _
    rcases v.listening hlisten with ⟨got, htallied, hshort, hchannel⟩
    exact ⟨got, { htallied with }, hshort, hchannel⟩
  · intro hdeaf
    simp [Call.isListening] at hdeaf

/-- A caller takes a report. -/
theorem gather {r : Report α} {rest : List (Report α)} (v : s.Valid t)
    (hp : s.call.phase = .gathering) (hi : s.call.inbox = r :: rest) :
    Valid t { s with call := ({ s.call with inbox := rest }).gather r } := by
  have hlisten : s.call.isListening = true := by simp [Call.isListening, hp]
  rcases v.listening hlisten with ⟨got, htallied, hshort, hchannel⟩
  have hkept : History.channel s.history = got ++ [r] ++ rest := by simp [hchannel, hi]
  -- the call without the report, by a name of its own
  obtain ⟨c, hc⟩ : ∃ c, c = { s.call with inbox := rest } := ⟨_, rfl⟩
  have hpolicy : c.policy = s.call.policy := by rw [hc]
  have hqueryId : c.queryId = s.call.queryId := by rw [hc]
  have htotal : c.total = s.call.total := by rw [hc]
  have habort : c.abort = s.call.abort := by rw [hc]
  have hphase : c.phase = .gathering := by rw [hc, ← hp]
  have hinbox : c.inbox = rest := by rw [hc]
  have htallied : c.Tallied got := by
    rw [hc]
    exact { htallied with }
  have hroom : got.length < c.total := by rw [htotal, v.total]; exact hshort
  rw [← hc]
  rcases c.gather_frame r with ⟨hpolicy', hqueryId', htotal', habort'⟩
  rcases htallied.gather (r := r) hroom with
    ⟨hmore, hlt, hphase', hinbox'⟩ | ⟨answer, hverdict, hphase', -⟩
  · -- either there are reports to come, or the verdict is in
    have hgathering : (c.gather r).phase = .gathering := hphase'.trans hphase
    refine v.of_caller (hpolicy'.trans hpolicy) (hqueryId'.trans hqueryId)
      (htotal'.trans htotal) (habort'.trans habort) (by rw [hgathering, hp]) (by simp [hlisten])
      ?_ ?_
    · intro _
      refine ⟨_, hmore, ?_, by rw [hkept, hinbox', hinbox]⟩
      simpa [htotal, v.total] using hlt
    · intro hdeaf
      simp [Call.isListening, hgathering] at hdeaf
  · refine v.of_caller (hpolicy'.trans hpolicy) (hqueryId'.trans hqueryId)
      (htotal'.trans htotal) (habort'.trans habort) (by simp [hphase', hp]) (by simp [hlisten])
      ?_ ?_
    · intro hears
      simp [Call.isListening, hphase'] at hears
    · intro _
      rw [hpolicy, v.policy, htotal, v.total] at hverdict
      exact ⟨answer, .verdict hverdict hkept, .inl hphase'⟩

/-- A caller gives up: no job is left, so each batch came to an end of its own. -/
theorem stop (v : s.Valid t) (hp : s.call.phase = .gathering) (hi : s.call.inbox = [])
    (hq : s.jobs = 0) :
    Valid t ⟨s.call.finish
      (.error (.bug (.workerStopped s.call.queryId s.call.received s.call.total))),
      s.jobs, s.history⟩ := by
  have hlisten : s.call.isListening = true := by simp [Call.isListening, hp]
  rcases v.listening hlisten with ⟨got, htallied, hshort, hchannel⟩
  -- no batch is to be sent and none has a job, so all are through
  have hfinished : s.Finished t := by
    intro i b hb
    -- and nobody has gone, for this call still listens
    rcases v.through i b hb (by simp [hp]) (by simp [hq]) with ⟨stage, rest, hat, hend | hdeaf⟩
    · exact ⟨stage, rest, hat, hend⟩
    · simp [hlisten] at hdeaf
  have hstopped : s.Stopped t got :=
    ⟨hshort, v.policy ▸ htallied.calm, v.total ▸ htallied.inRange, by simp [hchannel, hi], hq,
      hfinished⟩
  refine v.of_caller rfl rfl rfl rfl (by simp [hp, Call.finish]) (by simp [hlisten]) ?_ ?_
  · intro hears
    simp [Call.isListening, Call.finish] at hears
  · intro _
    refine ⟨_, .stopped hstopped, .inl ?_⟩
    rw [v.queryId, htallied.received, v.total]
    rfl

/-- Every step of a caller keeps the invariant. -/
theorem caller {c : Call κ α} {new : List (Job κ α)} (v : s.Valid t)
    (ht : s.call.Turn t.call (s.jobs = 0) c new) :
    Valid t { s with call := c, jobs := ↑new + s.jobs } := by
  cases ht with
  | submit hp =>
      simpa using v.submit hp
  | @count left hp =>
      have hlisten : s.call.isListening = true := by simp [Call.isListening, hp]
      have hcount : Valid t { s with call := { s.call with phase := .submitting left } } := by
        refine v.of_caller rfl rfl rfl rfl (by simp [hp]) (by simp [hlisten]) ?_ ?_
        · intro _
          rcases v.listening hlisten with ⟨got, htallied, hshort, hchannel⟩
          exact ⟨got, { htallied with }, hshort, hchannel⟩
        · intro hdeaf
          simp [Call.isListening] at hdeaf
      simpa using hcount
  | listen hp =>
      have hlisten : s.call.isListening = true := by simp [Call.isListening, hp]
      have hgather : Valid t { s with call := { s.call with phase := .gathering } } := by
        refine v.of_caller rfl rfl rfl rfl (by simp [hp]) (by simp [hlisten]) ?_ ?_
        · intro _
          rcases v.listening hlisten with ⟨got, htallied, hshort, hchannel⟩
          exact ⟨got, { htallied with }, hshort, hchannel⟩
        · intro hdeaf
          simp [Call.isListening] at hdeaf
      simpa using hgather
  | gather hp hi => simpa using v.gather hp hi
  | stop hp hi hq => simpa using v.stop hp hi hq

section

variable {j : Job κ α} {others : Multiset (Job κ α)} {p : Progress (Job κ α)} {c : Call κ α}
  {os : History κ α}

theorem batch_ne_of_mem (v : s.Valid t) (hj : s.jobs = j ::ₘ others) {j' : Job κ α}
    (hj' : j' ∈ others) : j'.batch ≠ j.batch := by
  have hnodup := (Multiset.nodup_add.mp v.distinct).2.1
  rw [hj, Multiset.map_cons, Multiset.nodup_cons] at hnodup
  intro heq
  exact hnodup.1 (Multiset.mem_map.mpr ⟨j', hj', heq⟩)

theorem batch_ne_of_waiting (v : s.Valid t) (hj : j ∈ s.jobs) {i : Nat} {b : Batch κ α}
    (hb : (i, b) ∈ s.call.phase.left) : i ≠ j.batch := by
  -- numbers of batches to be sent and of batches with a job are apart
  have hdisjoint := (Multiset.nodup_add.mp v.distinct).2.2
  rintro rfl
  exact Multiset.disjoint_left.mp hdisjoint
    (Multiset.mem_coe.mpr (List.mem_map.mpr ⟨_, hb, rfl⟩)) (Multiset.mem_map_of_mem _ hj)

/-- The jobs left behind a step have no more batches than before. -/
theorem distinct_left (v : s.Valid t) (hj : s.jobs = j ::ₘ others) (ht : j.Turn s.call p c os) :
    ((s.call.phase.left.map Prod.fst : Multiset Nat) +
      (↑p.left + others).map Job.batch).Nodup := by
  refine Multiset.nodup_of_le ?_ v.distinct
  have hleft : (↑p.left : Multiset (Job κ α)).map Job.batch ≤ {j.batch} := by
    cases hp : p with
    | continues j' =>
        have hbatch : j'.batch = j.batch := (ht.left_eq j' (by simp [hp, Progress.left])).2
        simp [Progress.left, hbatch]
    | ends => simp [Progress.left]
    | panics => simp [Progress.left]
  rw [hj, Multiset.map_add, Multiset.map_cons, ← Multiset.singleton_add]
  gcongr

theorem trail_self (ht : j.Turn s.call p c os) :
    History.trail j.batch (s.history ++ os) = History.trail j.batch s.history ++ os := by
  rw [History.trail_append, History.trail_of_site os fun o ho => (ht.site_eq o ho).2]

theorem trail_other (ht : j.Turn s.call p c os) {i : Nat} (hi : i ≠ j.batch) :
    History.trail i (s.history ++ os) = History.trail i s.history := by
  have hnone : History.trail i os = [] :=
    History.trail_of_ne os fun o ho => (ht.site_eq o ho).2 ▸ hi.symm
  rw [History.trail_append, hnone, List.append_nil]

/-- Where a step raises the flag, the unit that fails has started. -/
theorem raised_turn (v : s.Valid t) (hj : j ∈ s.jobs) (ht : j.Turn s.call p c os)
    (ha : c.abort = true) : t.policy = .failFast ∧
      ∃ i b front u back e, t.batches[i]? = some b ∧ b.units = front ++ u :: back ∧
        u.outcome = .failure e ∧
        front.length < (History.starts (History.trail i s.history)).length := by
  rcases ht.abort_cases with hsame | ⟨-, hpolicy, u, e, hs, hu⟩
  · exact v.raised (hsame ▸ ha)
  · rcases v.working j hj with ⟨-, b, hb, hat⟩
    refine ⟨v.policy ▸ hpolicy, j.batch, b, ?_⟩
    -- the stage of the job shows its unit under way, behind those that ran
    generalize hh : History.trail j.batch s.history = h at hat
    rw [hs] at hat
    cases hat with
    | @running ran rest _ performed _ units passes effects =>
        exact ⟨ran, u, _, e, hb, units, hu, by simp⟩

/-- What a step leaves of its job, and all other jobs, are on their lanes. -/
theorem working_turn (v : s.Valid t) (hj : s.jobs = j ::ₘ others) (ht : j.Turn s.call p c os) :
    ∀ j' ∈ (↑p.left + others : Multiset (Job κ α)), j'.call = t.call ∧
      ∃ b, t.batches[j'.batch]? = some b ∧
        (t.lane j'.batch b).At c.abort j'.stage j'.rest
          (History.trail j'.batch (s.history ++ os)) := by
  rcases v.working j (by simp [hj]) with ⟨hcall, b, hb, hat⟩
  intro j' hj'
  rcases Multiset.mem_add.mp hj' with hj' | hj'
  · rcases ht.left_eq j' hj' with ⟨hcall', hbatch'⟩
    refine ⟨hcall'.trans hcall, b, by rw [hbatch']; exact hb, ?_⟩
    rw [hbatch', trail_self ht]
    exact hat.turn hcall.symm rfl v.policy ht j' hj'
  · -- no other job has the batch of this one, so its trail stays
    rcases v.working j' (by simp [hj, hj']) with ⟨hcall', b', hb', hat'⟩
    refine ⟨hcall', b', hb', ?_⟩
    rw [trail_other ht (v.batch_ne_of_mem hj hj')]
    exact hat'.mono ht.abort_mono

/-- A batch without a job is through, also the one whose job has just come to its end. -/
theorem through_turn (v : s.Valid t) (hj : s.jobs = j ::ₘ others) (ht : j.Turn s.call p c os)
    {i : Nat} {b : Batch κ α} (hb : t.batches[i]? = some b)
    (hnot : i ∉ s.call.phase.left.map Prod.fst)
    (hjobs : ∀ j' ∈ (↑p.left + others : Multiset (Job κ α)), j'.batch ≠ i) :
    Through ⟨c, ↑p.left + others, s.history ++ os⟩ (t.lane i b) := by
  by_cases hi : i = j.batch
  · subst hi
    rcases v.working j (by simp [hj]) with ⟨-, b', hb', hat⟩
    have hsame : b' = b := Option.some.inj (hb'.symm.trans hb)
    subst hsame
    have hnone : p.left = [] := by
      by_contra hne
      rcases List.exists_mem_of_ne_nil _ hne with ⟨j', hj'⟩
      exact hjobs j' (by simp [hj']) (ht.left_eq j' hj').2
    rcases Lane.ended_of_turn ht hnone with ⟨rfl, hend⟩
    refine ⟨j.stage, j.rest, ?_, hend.imp id ht.isListening_eq.trans⟩
    rw [List.append_nil]
    exact hat.mono ht.abort_mono
  · have hfree : ∀ j' ∈ s.jobs, j'.batch ≠ i := by
      intro j' hj'
      rw [hj] at hj'
      rcases Multiset.mem_cons.mp hj' with rfl | hj'
      · exact Ne.symm hi
      · exact hjobs j' (by simp [hj'])
    rcases v.through i b hb hnot hfree with ⟨stage, rest, hat, hend⟩
    refine ⟨stage, rest, ?_, hend.imp id ht.isListening_eq.trans⟩
    have htrail : History.trail (t.lane i b).batch (s.history ++ os) =
        History.trail i s.history := trail_other ht hi
    rw [htrail]
    exact hat.mono ht.abort_mono

/-- Every step of a job keeps the invariant. -/
theorem work (v : s.Valid t) (hj : s.jobs = j ::ₘ others) (ht : j.Turn s.call p c os) :
    Valid t ⟨c, ↑p.left + others, s.history ++ os⟩ where
  policy := by
    rw [ht.call_eq]
    exact v.policy
  queryId := by
    rw [ht.call_eq]
    exact v.queryId
  total := by
    rw [ht.call_eq]
    exact v.total
  distinct := by
    rw [ht.phase_eq]
    exact v.distinct_left hj ht
  waiting := by
    intro i b hb
    rw [ht.phase_eq] at hb
    rw [trail_other ht (v.batch_ne_of_waiting (by simp [hj]) hb)]
    exact v.waiting i b hb
  working := v.working_turn hj ht
  through := by
    intro i b hb hnot
    rw [ht.phase_eq] at hnot
    exact v.through_turn hj ht hb hnot
  sites := by
    rcases v.working j (by simp [hj]) with ⟨hcall, b, hb, -⟩
    intro o ho
    rcases List.mem_append.mp ho with ho | ho
    · exact v.sites o ho
    · rcases ht.site_eq o ho with ⟨hocall, hobatch⟩
      refine ⟨hocall.trans hcall, ?_⟩
      rw [hobatch]
      exact (List.getElem?_eq_some_iff.mp hb).1
  raised := by
    intro ha
    rcases v.raised_turn (by simp [hj]) ht ha with
      ⟨hpolicy, i, b, front, u, back, e, hb, hu, hfails, hlt⟩
    refine ⟨hpolicy, i, b, front, u, back, e, hb, hu, hfails, ?_⟩
    simp only [History.trail_append, History.starts_append, List.length_append]
    omega
  listening := by
    -- a report that the step sends is the last one in the channel and in the inbox
    intro hl
    rcases v.listening (ht.isListening_eq ▸ hl) with ⟨got, htallied, hshort, hchannel⟩
    refine ⟨got, ?_, hshort, ?_⟩
    · rw [ht.call_eq]
      exact { htallied with }
    · rw [ht.call_eq, History.channel_append, hchannel, List.append_assoc]
  answered := by
    intro hl
    rcases v.answered (ht.isListening_eq ▸ hl) with ⟨answer, hanswered, hdone⟩
    refine ⟨answer, ?_, by rwa [ht.phase_eq]⟩
    cases hanswered with
    | @verdict got lost _ verdict channel =>
        have hkept : History.channel (s.history ++ os) = got ++ (lost ++ History.channel os) := by
          rw [History.channel_append, channel, List.append_assoc]
        exact .verdict verdict hkept
    | stopped stopped =>
        -- no job was left when the caller gave up
        have hmem : j ∈ s.jobs := by simp [hj]
        simp [stopped.jobs] at hmem

end

/-- Every step keeps the invariant. -/
theorem step {s' : Share κ α} (v : s.Valid t) (hstep : s.Step t.call s') : s'.Valid t := by
  cases hstep with
  | call ht => exact v.caller ht
  | work hj ht => exact v.work hj ht
  | @collect answer hp =>
      have hdeaf : s.call.isListening = false := by simp [Call.isListening, hp]
      rcases v.answered hdeaf with ⟨answer', hanswered, -⟩
      refine v.of_caller rfl rfl rfl rfl (by simp [hp]) (fun _ => rfl) ?_ ?_
      · intro hears
        simp [Call.isListening] at hears
      · intro _
        exact ⟨answer', hanswered, .inr rfl⟩

end Valid

end Share

end ScatterGather
