import ScatterGather.Proofs.Engine.Returns

/-!
# Misplaced — a call whose units bear any positions

Nothing checks that the positions of a call are those of its slots: two units may share one, some
may belong to no unit, and others may lie behind the last slot.  Under best effort the answer is
still settled by the units alone, whatever the order in which they report, but for the choice
between units at the same place.

* `Share.Arbitrated` : the answers that such units can get, each with what the units have in common;
* `Share.Answered.arbitrated` : every answer is one of them;
* `Engine.misplaced_units_answer` : in every run a value out of range comes before all failures, and
  the failure at the lowest position before all values.
-/

namespace ScatterGather

variable {κ α : Type}

namespace Share

variable {t : Task κ α} {s : Share κ α} {answer : Answer α}

/-- All that best effort makes of units with any positions, none of which panics. -/
inductive Arbitrated (units : List (Work κ α)) : Answer α → Prop
  | outOfRange {u : Work κ α} (mem : u ∈ units) (succeeds : u.Succeeds)
      (out : units.length ≤ u.position) :
      Arbitrated units (.error (.bug (.positionOutOfRange u.position units.length)))
  | failures {u : Work κ α} {e : ExecutionError}
      (inRange : ∀ w ∈ units, w.Succeeds → w.position < units.length) (mem : u ∈ units)
      (failure : u.outcome = .failure e)
      (lowest : ∀ w ∈ units, w.Fails → u.position ≤ w.position) :
      Arbitrated units (.error (.execution (.aggregate e (units.countP fun u => u.Fails))))
  | values {slots : List (Option α)} (succeed : ∀ u ∈ units, u.Succeeds)
      (inRange : ∀ w ∈ units, w.Succeeds → w.position < units.length)
      (length : slots.length = units.length)
      (placed : ∀ position < units.length,
        (slots[position]? = some none ∧ ∀ u ∈ units, u.Succeeds → u.position ≠ position) ∨
          ∃ u ∈ units, u.position = position ∧
            ∃ a, u.outcome = .value a ∧ slots[position]? = some (some a)) :
      Arbitrated units (.ok slots)

namespace Complete

/-- Where no report of a value is out of range, no unit with a value is. -/
theorem inRange (h : s.Complete t) (v : s.Valid t)
    (hreports : ∀ position a, .done position (.ok a) ∈ History.channel s.history →
      position < t.total) : ∀ u ∈ t.units, u.Succeeds → u.position < t.total := by
  rintro u hu ⟨a, ha⟩
  exact hreports _ a (h.mem_value v hu ha)

end Complete

theorem Answered.arbitrated (h : s.Answered t answer) (v : s.Valid t)
    (hpolicy : t.policy = .bestEffort) (calm : ∀ u ∈ t.units, ¬ u.Panics) :
    Arbitrated t.units answer := by
  cases h with
  | @verdict got lost _ verdict channel =>
      cases verdict with
      | complete all hcalm inRange =>
          have hchannel := v.channel_eq_of_full channel all
          rcases v.complete_of_full (hchannel ▸ all) (hchannel ▸ hcalm) with ⟨hcomplete, hsucceed⟩
          have hplaced : ∀ position < t.total, _ := fun _ hlt => hcomplete.placed v hlt
          rw [hchannel] at hplaced
          exact .values hsucceed (hcomplete.inRange v (hchannel ▸ inRange)) (by simp [Task.total])
            hplaced
      | @aggregate _ position e patient all first inRange =>
          have hchannel := v.channel_eq_of_full channel all
          have hcomplete := v.complete_of_full_patient (hchannel ▸ all) patient
          rcases hcomplete.first v (hchannel ▸ first) with ⟨u, hu, he, hlowest⟩
          have hcount := hcomplete.countP_failure v
          rw [hchannel] at hcount
          rw [hcount]
          exact .failures (hcomplete.inRange v (hchannel ▸ inRange)) hu he hlowest
      | failure fast =>
          rw [hpolicy] at fast
          cases fast
      | @outOfRange got position a out =>
          -- the value was reported by a unit that succeeded
          have hmem : .done position (.ok a) ∈ History.channel s.history := by simp [channel]
          rcases v.of_done hmem with ⟨l, hl, front, u, back, hu, rfl, hresult, -, -⟩
          have hvalue := (Work.report?_eq_value (Work.report?_of_result hresult)).2
          exact .outOfRange (Task.mem_units hl (by simp [hu])) ⟨a, hvalue⟩ out
  | @stopped got stopped =>
      -- all units have reported, so none is missing
      have hcomplete := stopped.finished.settled.complete_of_patient hpolicy calm
      have hlength := hcomplete.length_channel v calm
      have hmissing := stopped.missing
      rw [stopped.channel] at hlength
      omega

namespace Arbitrated

variable {units : List (Work κ α)}

theorem outOfRange_iff (h : Arbitrated units answer) :
    (∃ position count, answer = .error (.bug (.positionOutOfRange position count))) ↔
      ∃ u ∈ units, u.Succeeds ∧ units.length ≤ u.position := by
  have hno (inRange : ∀ w ∈ units, w.Succeeds → w.position < units.length) :
      ¬ ∃ u ∈ units, u.Succeeds ∧ units.length ≤ u.position := by
    rintro ⟨u, hu, hsucceeds, hout⟩
    exact absurd (inRange u hu hsucceeds) (not_lt.mpr hout)
  cases h with
  | @outOfRange u mem succeeds out => exact iff_of_true ⟨_, _, rfl⟩ ⟨u, mem, succeeds, out⟩
  | failures inRange => exact iff_of_false (by rintro ⟨_, _, ⟨⟩⟩) (hno inRange)
  | values _ inRange => exact iff_of_false (by rintro ⟨_, _, ⟨⟩⟩) (hno inRange)

/-- With no value out of range, a failure at the lowest position is returned. -/
theorem failure (h : Arbitrated units answer)
    (inRange : ∀ u ∈ units, u.Succeeds → u.position < units.length)
    (hfails : ∃ u ∈ units, u.Fails) : ∃ u ∈ units, ∃ err, u.outcome = .failure err ∧
      (∀ w ∈ units, w.Fails → u.position ≤ w.position) ∧
      answer = .error (.execution (.aggregate err (units.countP fun u => u.Fails))) := by
  cases h with
  | outOfRange mem succeeds out => exact absurd (inRange _ mem succeeds) (not_lt.mpr out)
  | failures _ mem failure lowest => exact ⟨_, mem, _, failure, lowest, rfl⟩
  | values succeed =>
      rcases hfails with ⟨u, hu, hfails⟩
      exact absurd (succeed u hu) hfails.not_succeeds

theorem fails_of_aggregate {err : ExecutionError} {failed : Nat}
    (h : Arbitrated units (.error (.execution (.aggregate err failed)))) :
    ∃ u ∈ units, u.Fails := by
  cases h with
  | failures _ mem failure => exact ⟨_, mem, _, failure⟩

/-- With no value out of range and no failure, the slots are returned. -/
theorem filled (h : Arbitrated units answer)
    (inRange : ∀ u ∈ units, u.Succeeds → u.position < units.length)
    (hnone : ∀ u ∈ units, ¬ u.Fails) : ∃ slots, answer = .ok slots ∧
      slots.length = units.length ∧ ∀ position : Nat,
        ((∃ a, slots[position]? = some (some a)) ↔ ∃ u ∈ units, u.position = position) ∧
        ∀ a, slots[position]? = some (some a) →
          ∃ u ∈ units, u.position = position ∧ u.outcome = .value a := by
  cases h with
  | outOfRange mem succeeds out => exact absurd (inRange _ mem succeeds) (not_lt.mpr out)
  | failures _ mem failure => exact absurd ⟨_, failure⟩ (hnone _ mem)
  | @values slots succeed _ length placed =>
      refine ⟨slots, rfl, length, fun position => ?_⟩
      by_cases hlt : position < units.length
      · rcases placed position hlt with ⟨hempty, hothers⟩ | ⟨u, hu, hposition, a, ha, hslot⟩
        · have hvacant : ¬ ∃ u ∈ units, u.position = position := by
            rintro ⟨u, hu, hposition⟩
            exact hothers u hu (succeed u hu) hposition
          refine ⟨iff_of_false (by simp [hempty]) hvacant, ?_⟩
          simp [hempty]
        · refine ⟨iff_of_true ⟨a, hslot⟩ ⟨u, hu, hposition⟩, ?_⟩
          intro b hb
          rw [hslot] at hb
          cases hb
          exact ⟨u, hu, hposition, ha⟩
      · -- behind the last slot there is nothing, and no unit
        have hnothing : slots[position]? = none := List.getElem?_eq_none (by omega)
        have hvacant : ¬ ∃ u ∈ units, u.position = position := by
          rintro ⟨u, hu, rfl⟩
          exact hlt (inRange u hu (succeed u hu))
        exact ⟨iff_of_false (by simp [hnothing]) hvacant, by simp [hnothing]⟩

end Arbitrated

/-- A caller that still takes reports has a slot for each unit, and no other. -/
theorem Valid.length_slots (v : s.Valid t) (hl : s.call.isListening = true) :
    s.call.slots.length = t.total := by
  rcases v.listening hl with ⟨got, htallied, -, -⟩
  rw [htallied.slots, Report.length_placeAll, List.length_replicate, v.total]

end Share

namespace Engine

variable {threads : Nat} {t : Task κ α} {e : Engine κ α (History κ α)}

/-- Under best effort a call whose units bear any positions returns.  As long as it takes reports it
has one slot for each unit, and a value for a position behind them ends it.  It reports a position
out of range if and only if some unit that succeeds bears one, also when others fail.  Else it
returns an aggregate if and only if some unit fails, with the number of those and the error of one
at the lowest position among them; and else one slot for each unit, in which a value stands where
there is a unit with its position, and it is that of such a unit. -/
theorem misplaced_units_answer (hpolicy : t.policy = .bestEffort)
    (calm : ∀ u ∈ t.units, ¬ u.Panics) (h : e.Serves threads t) :
    Inevitable (step? History.note) (fun e => e.isReturned t.call = true) e ∧
    (∀ c, e.calls[t.call]? = some c → c.isListening = true → c.slots.length = t.total ∧
      ∀ position a, t.total ≤ position → (c.gather (.done position (.ok a))).answer? =
        some (.error (.bug (.positionOutOfRange position t.total)))) ∧
    ∀ answer, e.answer? t.call = some answer →
      ((∃ position count, answer = .error (.bug (.positionOutOfRange position count))) ↔
        ∃ u ∈ t.units, u.Succeeds ∧ t.total ≤ u.position) ∧
      ((∀ u ∈ t.units, u.Succeeds → u.position < t.total) →
        ((∃ err failed, answer = .error (.execution (.aggregate err failed))) ↔
          ∃ u ∈ t.units, u.Fails) ∧
        ((∃ u ∈ t.units, u.Fails) → ∃ u ∈ t.units, ∃ err, u.outcome = .failure err ∧
          (∀ w ∈ t.units, w.Fails → u.position ≤ w.position) ∧
          answer = .error (.execution (.aggregate err (t.units.countP fun u => u.Fails))) ∧
          ((∀ w ∈ t.units, ∀ f, w.outcome = .failure f → f.unitIndex? = some w.position) →
            (ExecutionError.aggregate err (t.units.countP fun u => u.Fails)).unitIndex? =
              some u.position)) ∧
        ((∀ u ∈ t.units, ¬ u.Fails) → ∃ slots, answer = .ok slots ∧ slots.length = t.total ∧
          ∀ position : Nat,
            ((∃ a, slots[position]? = some (some a)) ↔ ∃ u ∈ t.units, u.position = position) ∧
            ∀ a, slots[position]? = some (some a) →
              ∃ u ∈ t.units, u.position = position ∧ u.outcome = .value a)) := by
  refine ⟨h.return_inevitable, ?_, ?_⟩
  · intro c hc hl
    rcases h.valid with ⟨s, hs, v⟩
    have hcall : s.call = c := Option.some.inj ((share?_eq_some.mp hs).1.symm.trans hc)
    subst hcall
    have hlength := v.length_slots hl
    refine ⟨hlength, ?_⟩
    intro position a hout
    rw [Call.gather_outOfRange (by omega), ← v.total]
    rfl
  · intro answer ha
    rcases h.answered ha with ⟨s, -, v, hanswered⟩
    have harbitrated := hanswered.arbitrated v hpolicy calm
    refine ⟨harbitrated.outOfRange_iff, ?_⟩
    intro inRange
    refine ⟨⟨?_, ?_⟩, ?_, harbitrated.filled inRange⟩
    · rintro ⟨err, failed, rfl⟩
      exact harbitrated.fails_of_aggregate
    · intro hfails
      rcases harbitrated.failure inRange hfails with ⟨u, -, err, -, -, heq⟩
      exact ⟨err, _, heq⟩
    · intro hfails
      rcases harbitrated.failure inRange hfails with ⟨u, hu, err, he, hlowest, heq⟩
      exact ⟨u, hu, err, he, hlowest, heq, fun hcarry => hcarry u hu err he⟩

end Engine

namespace Task

/-- Three units, two of which share a position. -/
def crowded (position : Nat) (double : Outcome Nat) : Task Unit Nat :=
  { call := 0
    policy := .bestEffort
    queryId := 1
    batches :=
      [⟨⟨0, "left"⟩, [⟨0, [], .value 5⟩, ⟨position, [], .value 7⟩]⟩,
        ⟨⟨1, "right"⟩, [⟨0, [], double⟩]⟩] }

/-- One batch runs before the other. -/
def crowdedMoves : List (Action Unit Nat) :=
  List.replicate 5 (.move (.caller 0)) ++ List.replicate 7 (.move (.worker 0)) ++
    List.replicate 4 (.move (.worker 1)) ++ List.replicate 3 (.move (.caller 0))

end Task

namespace Engine

/-- The later of two values at one position stays, and a slot to which no unit belongs is empty. -/
theorem misplaced_units_answer_crowded : ∃ e : Engine Unit Nat (History Unit Nat),
    e.Serves 2 (.crowded 1 (.value 6)) ∧ e.answer? 0 = some (.ok [some 6, some 7, none]) ∧
      ¬ ∃ u ∈ (Task.crowded 1 (.value 6)).units, u.position = 2 := by
  obtain ⟨e, hrun, hanswer⟩ : ∃ e, Task.crowdedMoves.foldlM (act? History.note)
      ((Engine.new 2 []).start (Task.crowded 1 (.value 6)).start) = some e ∧
        e.answer? 0 = some (.ok [some 6, some 7, none]) := ⟨_, rfl, rfl⟩
  have hserves : e.Serves 2 (.crowded 1 (.value 6)) := .of_moves rfl hrun
  have hcalm : ∀ u ∈ (Task.crowded 1 (.value 6)).units, ¬ u.Panics := by decide
  have hinRange : ∀ u ∈ (Task.crowded 1 (.value 6)).units, u.Succeeds →
      u.position < (Task.crowded 1 (.value 6)).total := by decide
  have hnone : ∀ u ∈ (Task.crowded 1 (.value 6)).units, ¬ u.Fails := by decide
  have hread := ((misplaced_units_answer rfl hcalm hserves).2.2 _ hanswer).2 hinRange
  rcases hread.2.2 hnone with ⟨slots, hslots, -, hplaced⟩
  cases hslots
  exact ⟨e, hserves, hanswer, fun hu => by simpa using (hplaced 2).1.mpr hu⟩

end Engine

end ScatterGather
