import ScatterGather.Proofs.Engine.Answer
import ScatterGather.Proofs.Engine.Service
import ScatterGather.Proofs.Session.Merging

/-!
# Returns — what every run of a call comes to

The statements hold for an engine with any number of workers that serves any number of calls, and
for every way in which workers and callers take turns.

* `Engine.answer_ok_iff` : a call returns values if and only if all its units have succeeded;
* `Engine.best_effort_answer` : under best effort the answer is a function of the units;
* `Engine.fail_fast_answer` : under fail-fast a failure is returned if and only if some batch comes
  to one, and it is a failure that really happened.
-/

namespace ScatterGather

variable {κ α : Type}

namespace Share

variable {t : Task κ α} {s : Share κ α} {answer : Answer α}

/-- Units that all succeed are all run, and their values returned. -/
theorem Answered.ok_of_succeeds (h : s.Answered t answer) (v : s.Valid t) (hnum : t.Numbered)
    (hsucceed : ∀ u ∈ t.units, u.Succeeds) : s.Complete t ∧ ∃ slots, answer = .ok slots := by
  have hnone (position : Nat) (e : ExecutionError) :
      .done position (.error e) ∉ History.channel s.history := by
    intro hm
    rcases v.of_failure hm with ⟨u, hu, -, he⟩
    exact Work.Fails.not_succeeds ⟨e, he⟩ (hsucceed u hu)
  rcases h.cases_of_numbered v hnum with
    ⟨slots, hok, hcomplete, -⟩ | ⟨position, e, -, -, -, hkeep⟩ |
      ⟨got, lost, position, e, -, -, hchannel, -⟩ | ⟨got, -, hsettled, hshort, -⟩
  · exact ⟨hcomplete, slots, hok⟩
  · exact absurd (Report.keepAll_eq_some hkeep).1 (hnone position e)
  · exact absurd (by simp [hchannel]) (hnone position e)
  · -- no unit panics, so none is missing
    have hcomplete := hsettled.complete_of_succeeds v hsucceed
    have hlength := hcomplete.length_channel v fun u hu hp => hp.not_succeeds (hsucceed u hu)
    omega

/-- The answer is a list of values if and only if all units have succeeded. -/
theorem Answered.ok_iff (h : s.Answered t answer) (v : s.Valid t) (hnum : t.Numbered) :
    (∃ slots, answer = .ok slots) ↔
      ∀ u ∈ t.units, u.position ∈ History.starts s.history ∧ u.Succeeds := by
  constructor
  · rintro ⟨slots, rfl⟩
    rcases h.cases_of_numbered v hnum with
      ⟨_, -, hcomplete, hsucceed, -⟩ | ⟨_, _, hne, -⟩ | ⟨_, _, _, _, hne, -⟩ | ⟨_, hne, -⟩
    · intro u hu
      have hstarts := (hcomplete.starts_perm v).symm
      exact ⟨hstarts.subset (List.mem_map_of_mem hu), hsucceed u hu⟩
    · cases hne
    · cases hne
    · cases hne
  · intro hall
    exact (h.ok_of_succeeds v hnum fun u hu => (hall u hu).2).2

/-- The slots of an answer are full, each with the value of its unit. -/
theorem Answered.slots {slots : List (Option α)} (h : s.Answered t (.ok slots)) (v : s.Valid t)
    (hnum : t.Numbered) : slots.length = t.total ∧ none ∉ slots ∧
      ∀ u ∈ t.units, ∃ a, u.outcome = .value a ∧ slots[u.position]? = some (some a) := by
  rcases h.cases_of_numbered v hnum with
    ⟨slots', hok, hcomplete, hsucceed, hslots⟩ | ⟨_, _, hne, -⟩ | ⟨_, _, _, _, hne, -⟩ | ⟨_, hne, -⟩
  · cases hok
    have hlength : slots.length = t.total := by simp [hslots]
    have hvalues : ∀ u ∈ t.units, ∃ a, u.outcome = .value a ∧
        slots[u.position]? = some (some a) := by
      intro u hu
      rcases hsucceed u hu with ⟨a, ha⟩
      exact ⟨a, ha, hslots ▸ hcomplete.slots v hnum hu ha⟩
    refine ⟨hlength, ?_, hvalues⟩
    intro hnone
    -- an empty slot would be that of a unit
    rcases List.getElem?_of_mem hnone with ⟨position, hposition⟩
    have hlt : position < t.total := hlength ▸ (List.getElem?_eq_some_iff.mp hposition).1
    rcases hnum.exists_unit hlt with ⟨u, hu, rfl⟩
    rcases hvalues u hu with ⟨a, -, ha⟩
    rw [hposition] at ha
    cases ha
  · cases hne
  · cases hne
  · cases hne

/-- All that best effort makes of units none of which panics. -/
inductive Judged (units : List (Work κ α)) : Answer α → Prop
  | values {slots : List (Option α)} (succeed : ∀ u ∈ units, u.Succeeds)
      (length : slots.length = units.length)
      (placed : ∀ u ∈ units, ∃ a, u.outcome = .value a ∧ slots[u.position]? = some (some a)) :
      Judged units (.ok slots)
  | failures {u : Work κ α} {e : ExecutionError} (mem : u ∈ units)
      (failure : u.outcome = .failure e)
      (lowest : ∀ w ∈ units, w.Fails → u.position ≤ w.position) :
      Judged units (.error (.execution (.aggregate e (units.countP fun u => u.Fails))))

/-- A call that has returned under best effort has run all its units. -/
theorem Answered.complete_of_patient (h : s.Answered t answer) (v : s.Valid t) (hnum : t.Numbered)
    (hpolicy : t.policy = .bestEffort) (calm : ∀ u ∈ t.units, ¬ u.Panics) : s.Complete t := by
  rcases h.cases_of_numbered v hnum with
    ⟨_, -, hcomplete, -⟩ | ⟨_, _, -, -, hsettled, -⟩ | ⟨_, _, _, _, -, hfast, -⟩ |
      ⟨_, -, hsettled, -⟩
  · exact hcomplete
  · exact hsettled.complete_of_patient hpolicy calm
  · rw [hpolicy] at hfast
    cases hfast
  · exact hsettled.complete_of_patient hpolicy calm

theorem Answered.judged (h : s.Answered t answer) (v : s.Valid t) (hnum : t.Numbered)
    (hpolicy : t.policy = .bestEffort) (calm : ∀ u ∈ t.units, ¬ u.Panics) :
    Judged t.units answer := by
  have hcomplete := h.complete_of_patient v hnum hpolicy calm
  rcases h.cases_of_numbered v hnum with
    ⟨slots, rfl, -, hsucceed, -⟩ | ⟨position, e, rfl, -, -, hkeep⟩ | ⟨_, _, _, _, -, hfast, -⟩ |
      ⟨_, -, -, hshort, -⟩
  · rcases h.slots v hnum with ⟨hlength, -, hvalues⟩
    exact .values hsucceed hlength hvalues
  · rcases hcomplete.first v hkeep with ⟨u, hu, he, hlowest⟩
    rw [hcomplete.countP_failure v]
    exact .failures hu he hlowest
  · rw [hpolicy] at hfast
    cases hfast
  · have hlength := hcomplete.length_channel v calm
    omega

/-- Units with the same positions and outcomes are judged alike, however they are grouped. -/
theorem Judged.unique {t' : Task κ α} {answer' : Answer α} (h : Judged t.units answer)
    (h' : Judged t'.units answer') (hnum : t.Numbered) (hperm : t'.units.Perm t.units) :
    answer' = answer := by
  cases h with
  | @values slots succeed length placed =>
      cases h' with
      | @values slots' _ length' placed' =>
          -- slot by slot, both have the value of the same unit
          have hslots : slots' = slots := by
            apply List.ext_getElem?
            intro position
            by_cases hlt : position < t.units.length
            · rcases hnum.exists_unit hlt with ⟨u, hu, rfl⟩
              rcases placed u hu with ⟨a, ha, hslot⟩
              rcases placed' u (hperm.symm.subset hu) with ⟨b, hb, hslot'⟩
              rw [ha] at hb
              cases hb
              exact hslot'.trans hslot.symm
            · have hlength : slots'.length = slots.length :=
                length'.trans (hperm.length_eq.trans length.symm)
              rw [List.getElem?_eq_none (by omega), List.getElem?_eq_none (by omega)]
          rw [hslots]
      | failures mem failure lowest =>
          exact absurd (succeed _ (hperm.subset mem)) (Work.Fails.not_succeeds ⟨_, failure⟩)
  | @failures u e mem failure lowest =>
      cases h' with
      | values succeed' =>
          exact absurd (succeed' _ (hperm.symm.subset mem)) (Work.Fails.not_succeeds ⟨e, failure⟩)
      | @failures u' e' mem' failure' lowest' =>
          have hle := lowest u' (hperm.subset mem') ⟨e', failure'⟩
          have hge := lowest' u (hperm.symm.subset mem) ⟨e, failure⟩
          -- each of the two lies lowest, so they are one
          have hsame : u' = u :=
            hnum.eq_of_position (hperm.subset mem') mem (Nat.le_antisymm hge hle)
          rw [hsame, failure] at failure'
          cases failure'
          rw [hperm.countP_eq]

/-- A failure that fail-fast returns is that of the first unit of its batch that does not succeed,
and all units up to it have had their turn. -/
theorem Answered.genuine {err : ExecutionError} (h : s.Answered t (.error (.execution err)))
    (v : s.Valid t) (hnum : t.Numbered) (hpolicy : t.policy = .failFast) :
    ∃ i b front u back got lost, t.batches[i]? = some b ∧ b.units = front ++ u :: back ∧
      (∀ w ∈ front, w.Succeeds) ∧ u.outcome = .failure err ∧
      (front ++ [u]).map (·.position) <+: History.starts (History.trail i s.history) ∧
      History.channel s.history = got ++ .done u.position (.error err) :: lost ∧
      ∀ r ∈ got, r.isFailure = false := by
  rcases h.cases_of_numbered v hnum with
    ⟨_, hne, -⟩ | ⟨_, _, -, hpatient, -⟩ | ⟨got, lost, position, e, heq, -, hchannel, calm⟩ |
      ⟨_, hne, -⟩
  · cases hne
  · rw [hpolicy] at hpatient
    cases hpatient
  · cases heq
    -- the report leads back to the unit that sent it, and to the units in front of it
    have hmem : .done position (.error err) ∈ History.channel s.history := by simp [hchannel]
    rcases v.of_done hmem with ⟨l, hl, front, u, back, hu, rfl, hresult, hpasses, hstarts⟩
    rcases Task.mem_lanes.mp hl with ⟨i, b, hb, rfl⟩
    have hfront : ∀ w ∈ front, w.Succeeds := fun w hw => (hpolicy ▸ hpasses w hw).value
    have hfailure : u.outcome = .failure err :=
      (Work.report?_eq_failure (Work.report?_of_result hresult)).2
    exact ⟨i, b, front, u, back, got, lost, hb, hu, hfront, hfailure, hstarts, hchannel, calm⟩
  · cases hne

/-- Where a batch comes to a failure fail-fast returns one. -/
theorem Answered.failure_of_batch (h : s.Answered t answer) (v : s.Valid t) (hnum : t.Numbered)
    (hpolicy : t.policy = .failFast) {b : Batch κ α} {front back : List (Work κ α)} {u : Work κ α}
    (hb : b ∈ t.batches) (hu : b.units = front ++ u :: back) (hfront : ∀ w ∈ front, w.Succeeds)
    (hfails : u.Fails) : ∃ err, answer = .error (.execution err) := by
  rcases List.getElem?_of_mem hb with ⟨i, hi⟩
  have hl : t.lane i b ∈ t.lanes := Task.mem_lanes.mpr ⟨i, b, hi, rfl⟩
  have hmem : u ∈ (t.lane i b).units := by simp [Task.lane, hu]
  rcases h.cases_of_numbered v hnum with
    ⟨_, -, -, hsucceed, -⟩ | ⟨_, e, heq, -⟩ | ⟨_, _, _, e, heq, -⟩ | ⟨_, -, hsettled, -, calm⟩
  · exact absurd (hsucceed u (Task.mem_units hl hmem)) hfails.not_succeeds
  · exact ⟨_, heq⟩
  · exact ⟨e, heq⟩
  · -- the batch would have run through or stopped at a panic, and it does neither
    rcases hsettled.complete_or_panic v (calm hpolicy) hl with
      ⟨-, hall⟩ | ⟨front', u', back', hu', hfront', hpanics⟩
    · exact absurd (hall u hmem) hfails.not_succeeds
    · have hsame : u = u' := Work.first_failing_unique (hu.symm.trans hu') hfront
        hfails.not_succeeds hfront' hpanics.not_succeeds
      exact absurd (hsame ▸ hpanics) hfails.not_panics

/-- The only bug that a call can report is that units are missing. -/
theorem Answered.bug {b : Bug} (h : s.Answered t (.error (.bug b))) (v : s.Valid t)
    (hnum : t.Numbered) : ∃ got, b = .workerStopped t.queryId got t.total := by
  rcases h.cases_of_numbered v hnum with
    ⟨_, hne, -⟩ | ⟨_, _, hne, -⟩ | ⟨_, _, _, _, hne, -⟩ | ⟨got, heq, -⟩
  · cases hne
  · cases hne
  · cases hne
  · cases heq
    exact ⟨got, rfl⟩

end Share

namespace Task

/-- Two units, each in a batch of its own, the first batch being that of the second unit. -/
def pair (policy : Policy) (second first : Outcome Nat) : Task Unit Nat :=
  { call := 0
    policy
    queryId := 1
    batches :=
      [⟨⟨0, "left"⟩, [{ position := 1, effects := [], outcome := second }]⟩,
        ⟨⟨1, "right"⟩, [{ position := 0, effects := [], outcome := first }]⟩] }

/-- The caller sends both batches, each worker runs one, and the caller takes both reports. -/
def pairMoves : List (Action Unit Nat) :=
  List.replicate 5 (.move (.caller 0)) ++ List.replicate 4 (.move (.worker 0)) ++
    List.replicate 4 (.move (.worker 1)) ++ List.replicate 2 (.move (.caller 0))

theorem pair_numbered (policy : Policy) (second first : Outcome Nat) :
    (pair policy second first).Numbered := by
  have hswap : [1, 0].Perm (List.range 2) := by decide
  exact hswap

end Task

namespace Engine

variable {threads : Nat} {t : Task κ α} {e : Engine κ α (History κ α)}

/-! ## Either policy -/

/-- A call returns.  It returns values if and only if every unit has run and has succeeded, and then
there is one in every slot, that of the unit at its position.  No report is ever out of range, and a
query never finds a slot without rows. -/
theorem answer_ok_iff (hnum : t.Numbered) (h : e.Serves threads t) :
    Inevitable (step? History.note) (fun e => e.isReturned t.call = true) e ∧
    ∀ answer, e.answer? t.call = some answer →
      ((∃ slots, answer = .ok slots) ↔
        ∀ u ∈ t.units, u.position ∈ History.starts (e.historyOf t.call) ∧ u.Succeeds) ∧
      (∀ slots, answer = .ok slots → slots.length = t.total ∧ none ∉ slots ∧
        ∀ u ∈ t.units, ∃ a, u.outcome = .value a ∧ slots[u.position]? = some (some a)) ∧
      (∀ position count, answer ≠ .error (.bug (.positionOutOfRange position count))) ∧
      ∀ (rows : α → QueryResult) queryId queryId' position count,
        Response.ofAnswer .query queryId
            (answer.map fun slots => slots.map (Option.map fun a => .rows (rows a))) ≠
          .failed (.bug (.missingResult queryId' position count)) := by
  refine ⟨h.return_inevitable, ?_⟩
  intro answer ha
  rcases h.answered ha with ⟨s, hhistory, v, hanswered⟩
  refine ⟨hhistory ▸ hanswered.ok_iff v hnum, ?_, ?_, ?_⟩
  · rintro slots rfl
    exact hanswered.slots v hnum
  · rintro position count rfl
    rcases hanswered.bug v hnum with ⟨got, heq⟩
    cases heq
  · intro rows queryId queryId' position count
    cases answer with
    | error err =>
        intro hfailed
        cases hfailed
        rcases hanswered.bug v hnum with ⟨got, heq⟩
        cases heq
    | ok slots =>
        -- no slot is empty, whatever its value is turned into
        have hfull : ∀ slot ∈ slots.map (Option.map fun a => Output.rows (rows a)),
            ∃ r, slot = some (.rows r) := by
          intro slot hslot
          rcases List.mem_map.mp hslot with ⟨value, hvalue, rfl⟩
          cases value with
          | none => exact absurd hvalue (hanswered.slots v hnum).2.1
          | some a => exact ⟨rows a, rfl⟩
        rcases Response.ofAnswer_rows queryId hfull with ⟨rs, -, hresponse⟩
        have hresults : Response.ofAnswer .query queryId
            (.ok (slots.map (Option.map fun a => Output.rows (rows a)))) = .results rs := hresponse
        simp only [Except.map, hresults]
        simp

theorem answer_ok_pair : ∃ e : Engine Unit Nat (History Unit Nat),
    e.Serves 2 (.pair .failFast (.value 7) (.value 5)) ∧
      e.answer? 0 = some (.ok [some 5, some 7]) ∧
      ∀ u ∈ (Task.pair .failFast (.value 7) (.value 5)).units,
        u.position ∈ History.starts (e.historyOf 0) ∧ u.Succeeds := by
  obtain ⟨e, hrun, hanswer⟩ : ∃ e, Task.pairMoves.foldlM (act? History.note)
      ((Engine.new 2 []).start (Task.pair .failFast (.value 7) (.value 5)).start) = some e ∧
        e.answer? 0 = some (.ok [some 5, some 7]) := ⟨_, rfl, rfl⟩
  have hserves : e.Serves 2 (.pair .failFast (.value 7) (.value 5)) := .of_moves rfl hrun
  have hread := ((answer_ok_iff (Task.pair_numbered ..) hserves).2 _ hanswer).1
  exact ⟨e, hserves, hanswer, hread.mp ⟨_, rfl⟩⟩

/-! ## Best effort -/

/-- Under best effort, with no panic, a call runs every unit once, with all its effects, and skips
none.  Its answer is that of the failing unit at the lowest position with the number of failures, or
the values if there is no failure, so it is the same in every run and for every grouping of the
units. -/
theorem best_effort_answer (hnum : t.Numbered) (hpolicy : t.policy = .bestEffort)
    (calm : ∀ u ∈ t.units, ¬ u.Panics) (h : e.Serves threads t) :
    Inevitable (step? History.note) (fun e => e.isReturned t.call = true) e ∧
    (∀ position, .skipped position ∉ History.channel (e.historyOf t.call)) ∧
    (e.isReturned t.call = true →
      (History.starts (e.historyOf t.call)).Perm (t.units.map (·.position)) ∧
      (History.effects (e.historyOf t.call)).Perm (t.units.flatMap (·.effects))) ∧
    ∀ answer, e.answer? t.call = some answer →
      ((∀ u ∈ t.units, ¬ u.Fails) → ∃ slots, answer = .ok slots) ∧
      ((∃ u ∈ t.units, u.Fails) → ∃ u ∈ t.units, ∃ err, u.outcome = .failure err ∧
        (∀ w ∈ t.units, w.Fails → u.position ≤ w.position) ∧
        answer = .error (.execution (.aggregate err (t.units.countP fun u => u.Fails)))) ∧
      ∀ threads' t' (e' : Engine κ α (History κ α)) answer', e'.Serves threads' t' →
        t'.policy = .bestEffort → t'.units.Perm t.units → e'.answer? t'.call = some answer' →
        answer' = answer := by
  refine ⟨h.return_inevitable, ?_, ?_, ?_⟩
  · intro position hm
    rcases h.valid with ⟨s, hs, v⟩
    rw [historyOf, ← (share?_eq_some.mp hs).2.2] at hm
    have hfast := v.of_skipped hm
    rw [hpolicy] at hfast
    cases hfast
  · intro hr
    rcases h.returned hr with ⟨s, answer, hhistory, v, hanswered, -⟩
    have hcomplete := hanswered.complete_of_patient v hnum hpolicy calm
    exact hhistory ▸ ⟨hcomplete.starts_perm v, hcomplete.effects_perm v⟩
  · intro answer ha
    rcases h.answered ha with ⟨s, -, v, hanswered⟩
    have hjudged := hanswered.judged v hnum hpolicy calm
    refine ⟨?_, ?_, ?_⟩
    · intro hnone
      cases hjudged with
      | @values slots => exact ⟨slots, rfl⟩
      | failures mem failure => exact absurd ⟨_, failure⟩ (hnone _ mem)
    · rintro ⟨u, hu, hfails⟩
      cases hjudged with
      | values succeed => exact absurd (succeed u hu) hfails.not_succeeds
      | @failures u err mem failure lowest => exact ⟨u, mem, err, failure, lowest, rfl⟩
    · intro threads' t' e' answer' h' hpolicy' hperm ha'
      rcases h'.answered ha' with ⟨s', -, v', hanswered'⟩
      have hnum' : t'.Numbered := hnum.of_perm hperm
      have hcalm' : ∀ u ∈ t'.units, ¬ u.Panics := fun u hu => calm u (hperm.subset hu)
      exact hjudged.unique (hanswered'.judged v' hnum' hpolicy' hcalm') hnum hperm

theorem best_effort_answer_pair : ∃ e : Engine Unit Nat (History Unit Nat),
    e.Serves 2 (.pair .bestEffort (.failure (.unit 1 "left" "")) (.failure (.unit 0 "right" ""))) ∧
      e.answer? 0 = some (.error (.execution (.aggregate (.unit 0 "right" "") 2))) ∧
      (History.starts (e.historyOf 0)).Perm [1, 0] := by
  obtain ⟨e, hrun, hreturned, hanswer⟩ : ∃ e, Task.pairMoves.foldlM (act? History.note)
      ((Engine.new 2 []).start (Task.pair .bestEffort (.failure (.unit 1 "left" ""))
        (.failure (.unit 0 "right" ""))).start) = some e ∧ e.isReturned 0 = true ∧
        e.answer? 0 = some (.error (.execution (.aggregate (.unit 0 "right" "") 2))) :=
    ⟨_, rfl, rfl, rfl⟩
  have hserves : e.Serves 2 (.pair .bestEffort (.failure (.unit 1 "left" ""))
      (.failure (.unit 0 "right" ""))) := .of_moves rfl hrun
  have hcalm : ∀ u ∈ (Task.pair .bestEffort (.failure (.unit 1 "left" ""))
      (.failure (.unit 0 "right" ""))).units, ¬ u.Panics := by
    simp [Task.pair, Task.units, Work.Panics]
  have hread := best_effort_answer (Task.pair_numbered ..) rfl hcalm hserves
  exact ⟨e, hserves, hanswer, (hread.2.2.1 hreturned).1⟩

/-! ## Fail-fast -/

/-- Under fail-fast a call returns a failure if and only if the first unit of some batch that does
not succeed fails.  The failure is then that of such a unit, which has run, as have all units in
front of it, and no failure was reported before it. -/
theorem fail_fast_answer (hnum : t.Numbered) (hpolicy : t.policy = .failFast)
    (h : e.Serves threads t) :
    Inevitable (step? History.note) (fun e => e.isReturned t.call = true) e ∧
    ∀ answer, e.answer? t.call = some answer →
      ((∃ err, answer = .error (.execution err)) ↔
        ∃ b ∈ t.batches, ∃ front u back, b.units = front ++ u :: back ∧
          (∀ w ∈ front, w.Succeeds) ∧ u.Fails) ∧
      ∀ err, answer = .error (.execution err) →
        ∃ i b front u back got lost, t.batches[i]? = some b ∧ b.units = front ++ u :: back ∧
          (∀ w ∈ front, w.Succeeds) ∧ u.outcome = .failure err ∧
          (front ++ [u]).map (·.position) <+:
            History.starts (History.trail i (e.historyOf t.call)) ∧
          History.channel (e.historyOf t.call) =
            got ++ .done u.position (.error err) :: lost ∧
          ∀ r ∈ got, r.isFailure = false := by
  refine ⟨h.return_inevitable, ?_⟩
  intro answer ha
  rcases h.answered ha with ⟨s, hhistory, v, hanswered⟩
  rw [← hhistory]
  refine ⟨⟨?_, ?_⟩, ?_⟩
  · rintro ⟨err, rfl⟩
    rcases hanswered.genuine v hnum hpolicy with
      ⟨i, b, front, u, back, got, lost, hb, hu, hfront, hfailure, -⟩
    exact ⟨b, List.mem_of_getElem? hb, front, u, back, hu, hfront, err, hfailure⟩
  · rintro ⟨b, hb, front, u, back, hu, hfront, hfails⟩
    exact hanswered.failure_of_batch v hnum hpolicy hb hu hfront hfails
  · rintro err rfl
    exact hanswered.genuine v hnum hpolicy

theorem fail_fast_answer_pair : ∃ e : Engine Unit Nat (History Unit Nat),
    e.Serves 2 (.pair .failFast (.value 7) (.failure (.unit 0 "right" ""))) ∧
      e.answer? 0 = some (.error (.execution (.unit 0 "right" ""))) ∧
      ∃ b ∈ (Task.pair .failFast (.value 7) (.failure (.unit 0 "right" ""))).batches,
        ∃ front u back, b.units = front ++ u :: back ∧ (∀ w ∈ front, w.Succeeds) ∧ u.Fails := by
  obtain ⟨e, hrun, hanswer⟩ : ∃ e, Task.pairMoves.foldlM (act? History.note)
      ((Engine.new 2 []).start
        (Task.pair .failFast (.value 7) (.failure (.unit 0 "right" ""))).start) = some e ∧
        e.answer? 0 = some (.error (.execution (.unit 0 "right" ""))) := ⟨_, rfl, rfl⟩
  have hserves : e.Serves 2 (.pair .failFast (.value 7) (.failure (.unit 0 "right" ""))) :=
    .of_moves rfl hrun
  have hread := (fail_fast_answer (Task.pair_numbered ..) rfl hserves).2 _ hanswer
  exact ⟨e, hserves, hanswer, hread.1.mp ⟨_, rfl⟩⟩

end Engine

end ScatterGather
