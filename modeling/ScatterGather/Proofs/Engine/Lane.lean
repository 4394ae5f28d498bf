import ScatterGather.Proofs.Engine.Turn

/-!
# Lane — how far a batch has come and what it has done on its way

A batch runs a stretch of its units from the front and reports a stretch behind that as skipped.
`Lane.At` ties the stage of its job and the units left to the full record of what it did, effects
included, so whatever is asked about one batch can be read off the record.

* `Lane.record` : what running one stretch of units and skipping the next leaves behind;
* `Lane.At` : the records that belong to a stage;
* `Lane.At.turn` : a step of the job keeps stage and record together;
* `Lane.Account`, `Lane.At.account` : every record as units run, unit under way, units skipped and
  units left, with their reports and their starts.
-/

namespace ScatterGather

variable {κ α : Type}

/-! ## Units -/

namespace Report

def position : Report α → Nat
  | done position _ => position
  | skipped position => position

end Report

namespace Work

/-- Whether the units behind this one still get their turn. -/
def Passes (policy : Policy) (u : Work κ α) : Prop :=
  (∃ a, u.outcome = .value a) ∨ policy = .bestEffort ∧ ∃ e, u.outcome = .failure e

def report? (u : Work κ α) : Option (Report α) :=
  u.outcome.result?.map (.done u.position)

def skip (u : Work κ α) : Report α :=
  .skipped u.position

theorem Passes.ne_panic {policy : Policy} {u : Work κ α} (h : u.Passes policy) :
    u.outcome ≠ .panic := by
  rcases h with ⟨a, ha⟩ | ⟨-, e, he⟩
  · simp [ha]
  · simp [he]

/-- Under fail-fast only a success lets the next unit run. -/
theorem Passes.value {u : Work κ α} (h : u.Passes .failFast) : ∃ a, u.outcome = .value a := by
  rcases h with h | ⟨hp, -⟩
  · exact h
  · cases hp

theorem report?_of_result {u : Work κ α} {result : Except ExecutionError α}
    (h : u.outcome.result? = some result) : u.report? = some (.done u.position result) := by
  simp [report?, h]

end Work

/-! ## Records -/

/-- A batch of a call and the policy that it runs under. -/
structure Lane (κ α : Type) where
  call : Nat
  batch : Nat
  policy : Policy
  units : List (Work κ α)

namespace Lane

variable (l : Lane κ α)

def site (u : Work κ α) : Site :=
  ⟨l.call, l.batch, u.position⟩

/-- A unit that has started and has performed some effects. -/
def opening (u : Work κ α) (performed : List κ) : History κ α :=
  .begun (l.site u) :: performed.map (.performed (l.site u))

/-- A unit that ran to its end and reported its result, if it had one. -/
def run (u : Work κ α) : History κ α :=
  l.opening u u.effects ++ u.report?.toList.map (.reported (l.site u))

def skips (us : List (Work κ α)) : History κ α :=
  us.map fun u => .reported (l.site u) u.skip

/-- The units `ran` have run, one after the other, and the units `skipped` were reported as
skipped. -/
def record (ran skipped : List (Work κ α)) : History κ α :=
  ran.flatMap l.run ++ l.skips skipped

section

variable {l}

@[simp] theorem starts_opening (u : Work κ α) (performed : List κ) :
    History.starts (l.opening u performed) = [u.position] := by
  simp [opening, History.starts, Occurrence.start?, site]

@[simp] theorem channel_opening (u : Work κ α) (performed : List κ) :
    History.channel (l.opening u performed) = [] := by
  simp [opening, History.channel, Occurrence.report?]

@[simp] theorem effects_opening (u : Work κ α) (performed : List κ) :
    History.effects (l.opening u performed) = performed := by
  simp [opening, History.effects, List.filterMap_cons, List.filterMap_map, Function.comp_def,
    Occurrence.effect?]

@[simp] theorem starts_run (u : Work κ α) : History.starts (l.run u) = [u.position] := by
  have hreports : History.starts (u.report?.toList.map (.reported (κ := κ) (l.site u))) = [] := by
    simp [History.starts, Occurrence.start?]
  simp [run, hreports]

@[simp] theorem channel_run (u : Work κ α) : History.channel (l.run u) = u.report?.toList := by
  simp only [run, History.channel_append, channel_opening, List.nil_append]
  cases u.report? <;> simp [History.channel, Occurrence.report?]

@[simp] theorem effects_run (u : Work κ α) : History.effects (l.run u) = u.effects := by
  have hreports : History.effects (u.report?.toList.map (.reported (κ := κ) (l.site u))) = [] := by
    simp [History.effects, Occurrence.effect?]
  simp [run, hreports]

@[simp] theorem starts_skips (us : List (Work κ α)) : History.starts (l.skips us) = [] := by
  simp [skips, History.starts, Occurrence.start?]

@[simp] theorem channel_skips (us : List (Work κ α)) :
    History.channel (l.skips us) = us.map Work.skip := by
  -- the reports of skipped units come in their order
  induction us with
  | nil => rfl
  | cons u us ih => simpa [skips, History.channel, Occurrence.report?] using ih

@[simp] theorem effects_skips (us : List (Work κ α)) : History.effects (l.skips us) = [] := by
  simp [skips, History.effects, Occurrence.effect?]

@[simp] theorem record_nil : l.record [] [] = [] := rfl

theorem record_skip (ran skipped : List (Work κ α)) (u : Work κ α) :
    l.record ran (skipped ++ [u]) = l.record ran skipped ++ [.reported (l.site u) u.skip] := by
  simp [record, skips]

theorem record_run (ran : List (Work κ α)) (u : Work κ α) :
    l.record (ran ++ [u]) [] = l.record ran [] ++ l.run u := by
  simp [record, skips]

@[simp] theorem starts_record (ran skipped : List (Work κ α)) :
    History.starts (l.record ran skipped) = ran.map (·.position) := by
  induction ran with
  | nil => simp [record]
  | cons u ran ih => simpa [record] using ih

@[simp] theorem effects_record (ran skipped : List (Work κ α)) :
    History.effects (l.record ran skipped) = ran.flatMap (·.effects) := by
  induction ran with
  | nil => simp [record]
  | cons u ran ih => simpa [record] using ih

@[simp] theorem channel_record (ran skipped : List (Work κ α)) :
    History.channel (l.record ran skipped) =
      ran.filterMap Work.report? ++ skipped.map Work.skip := by
  induction ran with
  | nil => simp [record]
  | cons u ran ih =>
      -- a unit that ran has at most one report, in front of those of the units behind it
      simp only [record, List.flatMap_cons, List.append_assoc, History.channel_append,
        channel_run] at ih ⊢
      rw [ih]
      cases hu : u.report? <;> simp [hu]

end

/-! ## Stages -/

/-- The records that belong to a stage of the job and the units it has left, where `abort` is the
flag of the call. -/
inductive At (abort : Bool) : Stage κ α → List (Work κ α) → History κ α → Prop
  | checking {ran skipped rest : List (Work κ α)} (units : l.units = ran ++ skipped ++ rest)
      (passes : ∀ u ∈ ran, u.Passes l.policy)
      (skips : skipped ≠ [] → l.policy = .failFast ∧ abort = true) :
      At abort .checking rest (l.record ran skipped)
  | skipping {ran skipped rest : List (Work κ α)} {u : Work κ α}
      (units : l.units = ran ++ skipped ++ u :: rest) (passes : ∀ u ∈ ran, u.Passes l.policy)
      (skips : l.policy = .failFast ∧ abort = true) :
      At abort (.skipping u) rest (l.record ran skipped)
  | running {ran rest : List (Work κ α)} {u : Work κ α} {performed left : List κ}
      (units : l.units = ran ++ u :: rest) (passes : ∀ u ∈ ran, u.Passes l.policy)
      (effects : u.effects = performed ++ left) :
      At abort (.running u left) rest (l.record ran [] ++ l.opening u performed)
  | reporting {ran rest : List (Work κ α)} {u : Work κ α} {result : Except ExecutionError α}
      (units : l.units = ran ++ u :: rest) (passes : ∀ u ∈ ran, u.Passes l.policy)
      (outcome : u.outcome.result? = some result)
      (raised : ∀ e, result = .error e → l.policy = .failFast → abort = true) :
      At abort (.reporting u result) rest (l.record ran [] ++ l.opening u u.effects)
  /-- The unit in front of the skipped ones has failed. -/
  | draining {ran skipped rest : List (Work κ α)} {u : Work κ α} {e : ExecutionError}
      (units : l.units = ran ++ [u] ++ skipped ++ rest) (passes : ∀ u ∈ ran, u.Passes l.policy)
      (failure : u.outcome = .failure e) (aborts : l.policy = .failFast ∧ abort = true) :
      At abort .draining rest (l.record (ran ++ [u]) skipped)

/-- Where a job ends or panics although its caller still listens. -/
inductive Ended : Stage κ α → List (Work κ α) → Prop
  | checking : Ended .checking []
  | draining : Ended .draining []
  | running {u : Work κ α} {rest : List (Work κ α)} (hu : u.outcome = .panic) :
      Ended (.running u []) rest

variable {l} {j : Job κ α} {c c' : Call κ α} {p : Progress (Job κ α)} {h os : History κ α}

/-- A batch that was not sent, or has just been taken from the queue. -/
theorem at_fresh (l : Lane κ α) (abort : Bool) : l.At abort .checking l.units [] :=
  record_nil (l := l) ▸ .checking (by simp) (by simp) (by simp)

/-- A raised flag can only have been raised by more. -/
theorem At.mono {abort abort' : Bool} {stage : Stage κ α} {rest : List (Work κ α)}
    (hmono : abort = true → abort' = true) (hat : l.At abort stage rest h) :
    l.At abort' stage rest h := by
  cases hat with
  | checking units passes skips =>
      exact .checking units passes fun hne => ⟨(skips hne).1, hmono (skips hne).2⟩
  | skipping units passes skips => exact .skipping units passes ⟨skips.1, hmono skips.2⟩
  | running units passes effects => exact .running units passes effects
  | reporting units passes outcome raised =>
      exact .reporting units passes outcome fun e he hp => hmono (raised e he hp)
  | draining units passes failure aborts =>
      exact .draining units passes failure ⟨aborts.1, hmono aborts.2⟩

/-- What is left of a batch is a part of it. -/
theorem At.mem_units {abort : Bool} {stage : Stage κ α} {rest : List (Work κ α)}
    (hat : l.At abort stage rest h) {u : Work κ α} (hu : u ∈ rest) : u ∈ l.units := by
  cases hat with
  | checking units | skipping units | running units | reporting units | draining units =>
      simp [units, hu]

/-- The report of a result completes the record of its unit. -/
theorem run_eq_opening {u : Work κ α} {result : Except ExecutionError α}
    (hu : u.outcome.result? = some result) :
    l.run u = l.opening u u.effects ++ [.reported (l.site u) (.done u.position result)] := by
  simp [run, Work.report?_of_result hu]

/-- Behind a reported result the batch goes on with the next unit, unless the unit failed under
fail-fast. -/
theorem At.report {abort : Bool} {u : Work κ α} {rest : List (Work κ α)}
    {result : Except ExecutionError α} (hat : l.At abort (.reporting u result) rest h) :
    l.At abort (.afterReport l.policy result) rest
      (h ++ [.reported (l.site u) (.done u.position result)]) := by
  cases hat with
  | @reporting ran _ _ _ units passes outcome raised =>
      -- the report is what was missing for the unit to count as run
      rw [List.append_assoc, ← run_eq_opening outcome, ← record_run]
      cases result with
      | ok a =>
          have hvalue : u.outcome = .value a := by
            cases hu : u.outcome <;> simp [hu, Outcome.result?] at outcome
            rw [outcome]
          -- a success lets the next unit run, whatever the policy
          refine .checking (by simpa using units) ?_ (by simp)
          intro v hv
          rcases List.mem_append.mp hv with hv | hv
          · exact passes v hv
          · exact .inl ⟨a, List.mem_singleton.mp hv ▸ hvalue⟩
      | error e =>
          have hfailure : u.outcome = .failure e := by
            cases hu : u.outcome <;> simp [hu, Outcome.result?] at outcome
            rw [outcome]
          cases hpol : l.policy with
          | failFast =>
              have hdrain : l.At abort .draining rest (l.record (ran ++ [u]) []) :=
                .draining (by simpa using units) passes hfailure ⟨hpol, raised e rfl hpol⟩
              simpa [Stage.afterReport] using hdrain
          | bestEffort =>
              -- under best effort a failure does so, too
              have hcheck : l.At abort .checking rest (l.record (ran ++ [u]) []) := by
                refine .checking (by simpa using units) ?_ (by simp)
                intro v hv
                rcases List.mem_append.mp hv with hv | hv
                · exact passes v hv
                · exact .inr ⟨hpol, e, List.mem_singleton.mp hv ▸ hfailure⟩
              simpa [Stage.afterReport] using hcheck

/-- A step of its job keeps the stage and the record of a lane together. -/
theorem At.turn (hcall : l.call = j.call) (hbatch : l.batch = j.batch)
    (hpol : c.policy = l.policy) (hat : l.At c.abort j.stage j.rest h) (ht : j.Turn c p c' os) :
    ∀ j' ∈ p.left, l.At c'.abort j'.stage j'.rest (h ++ os) := by
  -- what the job notes bears the marks of its lane
  have hsite (u : Work κ α) : j.site u = l.site u := by simp [Job.site, site, hcall, hbatch]
  cases ht with
  | done | panic | drained | depart => simp [Progress.left]
  | skip hs hr hp ha =>
      rw [hs, hr] at hat
      cases hat with
      | checking units passes skips =>
          simpa [Progress.left] using At.skipping units passes ⟨hpol ▸ hp, ha⟩
  | @start u rest hs hr hp =>
      rw [hs, hr] at hat
      cases hat with
      | @checking ran skipped _ units passes skips =>
          -- nothing was skipped so far, for the flag is down
          have hnil : skipped = [] := by
            by_contra hne
            rcases skips hne with ⟨hfast, hraised⟩
            simp [hp (hpol ▸ hfast)] at hraised
          subst hnil
          have hrun : l.At c.abort (.running u u.effects) rest
              (l.record ran [] ++ l.opening u []) :=
            .running (by simpa using units) passes rfl
          simpa [Progress.left, opening, hsite] using hrun
  | @perform u x left hs =>
      rw [hs] at hat
      cases hat with
      | @running ran _ _ performed _ units passes effects =>
          have hrun : l.At c.abort (.running u left) j.rest
              (l.record ran [] ++ l.opening u (performed ++ [x])) :=
            .running units passes (by simpa using effects)
          simpa [Progress.left, opening, hsite] using hrun
  | @succeed u a hs hu =>
      rw [hs] at hat
      cases hat with
      | @running ran _ _ performed _ units passes effects =>
          rw [List.append_nil] at effects
          -- all effects are performed, so the unit is on record with them
          subst effects
          have hreport : l.At c.abort (.reporting u (.ok a)) j.rest
              (l.record ran [] ++ l.opening u u.effects) :=
            .reporting units passes (by simp [hu, Outcome.result?]) (by simp)
          simpa [Progress.left] using hreport
  | @fail u e hs hu =>
      rw [hs] at hat
      cases hat with
      | @running ran _ _ performed _ units passes effects =>
          rw [List.append_nil] at effects
          subst effects
          have hreport : l.At c.raise.abort (.reporting u (.error e)) j.rest
              (l.record ran [] ++ l.opening u u.effects) :=
            .reporting units passes (by simp [hu, Outcome.result?])
              -- the flag goes up before the failure is reported
              fun _ _ hfast => by simp [Call.raise, hpol, hfast]
          simpa [Progress.left] using hreport
  | @report u result hs hlisten =>
      rw [hs] at hat
      simpa [Progress.left, hsite, hpol] using hat.report
  | @reportSkip u hs hlisten =>
      rw [hs] at hat
      cases hat with
      | @skipping ran skipped _ _ units passes skips =>
          have hcheck : l.At c.abort .checking j.rest (l.record ran (skipped ++ [u])) :=
            .checking (by simpa using units) passes fun _ => skips
          simpa [Progress.left, hsite, record_skip, Work.skip] using hcheck
  | @drain u rest hs hr hlisten =>
      rw [hs, hr] at hat
      cases hat with
      | @draining ran skipped _ v e units passes failure aborts =>
          have hdrain : l.At c.abort .draining rest (l.record (ran ++ [v]) (skipped ++ [u])) :=
            .draining (by simpa using units) passes failure aborts
          simpa [Progress.left, hsite, record_skip, Work.skip] using hdrain

/-- A job that goes no further adds nothing to its record; it has come to an end of its own, or its
caller has gone. -/
theorem ended_of_turn (ht : j.Turn c p c' os) (hp : p.left = []) :
    os = [] ∧ (Ended j.stage j.rest ∨ c.isListening = false) := by
  cases ht with
  | done hs hr => exact ⟨rfl, .inl (hs ▸ hr ▸ .checking)⟩
  | drained hs hr => exact ⟨rfl, .inl (hs ▸ hr ▸ .draining)⟩
  | panic hs hu => exact ⟨rfl, .inl (hs ▸ .running hu)⟩
  | depart hs hl => exact ⟨rfl, .inr hl⟩
  | skip | start | perform | succeed | fail | report | reportSkip | drain =>
      simp [Progress.left] at hp

/-! ## Accounts -/

/-- A record as the units `ran`, at most one unit `current` under way, the units `skipped`, and
the units `left` of which nothing was heard. -/
structure Account (l : Lane κ α) (abort : Bool) (h : History κ α)
    (ran current skipped left : List (Work κ α)) : Prop where
  units : l.units = ran ++ current ++ skipped ++ left
  channel : History.channel h = ran.filterMap Work.report? ++ skipped.map Work.skip
  starts : History.starts h = (ran ++ current).map (·.position)
  effects : ∃ begun, History.effects h = ran.flatMap (·.effects) ++ begun ∧
    begun <+: current.flatMap (·.effects)
  reported : ∀ u ∈ ran, u.outcome ≠ .panic
  passes : ∀ u ∈ (ran ++ current).dropLast, u.Passes l.policy
  skips : skipped ≠ [] → l.policy = .failFast ∧ abort = true
  under_way : current = [] ∨ ∃ u, current = [u] ∧ skipped = []

namespace Account

variable {abort : Bool} {ran current skipped left : List (Work κ α)}

theorem filterMap_report? (ha : l.Account abort h ran current skipped left) :
    (ran.filterMap Work.report?).map Report.position = ran.map (·.position) := by
  -- each unit that did not panic has a report of its own
  have hall (us : List (Work κ α)) (hus : ∀ u ∈ us, u.outcome ≠ .panic) :
      (us.filterMap Work.report?).map Report.position = us.map (·.position) := by
    induction us with
    | nil => rfl
    | cons u us ih =>
        have hu : u.outcome ≠ .panic := hus u (by simp)
        have hus' : ∀ v ∈ us, v.outcome ≠ .panic := fun v hv => hus v (by simp [hv])
        cases ho : u.outcome with
        | value a => simp [Work.report?, ho, Outcome.result?, Report.position, ih hus']
        | failure e => simp [Work.report?, ho, Outcome.result?, Report.position, ih hus']
        | panic => exact absurd ho hu
  exact hall ran ha.reported

/-- The reports of a lane follow its units from the front. -/
theorem positions_prefix (ha : l.Account abort h ran current skipped left) :
    (History.channel h).map Report.position <+: l.units.map (·.position) := by
  have hskips : (skipped.map Work.skip).map Report.position = skipped.map (·.position) := by
    simp [Work.skip, Report.position, Function.comp_def]
  rw [ha.channel, List.map_append, ha.filterMap_report?, hskips, ha.units]
  -- a unit under way is the last that was heard of, for then none is skipped
  rcases ha.under_way with hc | ⟨u, hc, hs⟩
  · subst hc
    exact ⟨left.map (·.position), by simp⟩
  · subst hc hs
    exact ⟨(u :: left).map (·.position), by simp⟩

theorem length_channel (ha : l.Account abort h ran current skipped left) :
    (History.channel h).length + current.length + left.length = l.units.length := by
  have hran : (ran.filterMap Work.report?).length = ran.length := by
    simpa using congrArg List.length ha.filterMap_report?
  simp only [ha.channel, ha.units, List.length_append, List.length_map, hran]
  omega

/-- A result was reported by a unit that ran, and all units in front of it passed. -/
theorem of_done {position : Nat} {result : Except ExecutionError α}
    (ha : l.Account abort h ran current skipped left)
    (hm : .done position result ∈ History.channel h) :
    ∃ front u back, ran = front ++ u :: back ∧ u.position = position ∧
      u.outcome.result? = some result ∧ ∀ v ∈ front, v.Passes l.policy := by
  rw [ha.channel] at hm
  rcases List.mem_append.mp hm with hm | hm
  · rcases List.mem_filterMap.mp hm with ⟨u, hu, hreport⟩
    rcases List.append_of_mem hu with ⟨front, back, hran⟩
    rcases Option.map_eq_some_iff.mp hreport with ⟨result', hresult, hdone⟩
    cases hdone
    refine ⟨front, u, back, hran, rfl, hresult, ?_⟩
    intro v hv
    apply ha.passes
    -- units in front of one that ran are not the last to have started
    have hsplit : ran ++ current = front ++ u :: (back ++ current) := by simp [hran]
    rw [hsplit, List.dropLast_append_of_ne_nil (by simp)]
    exact List.mem_append_left _ hv
  · rcases List.mem_map.mp hm with ⟨u, -, hu⟩
    cases hu

/-- A unit is skipped only once the flag is up. -/
theorem of_skipped {position : Nat} (ha : l.Account abort h ran current skipped left)
    (hm : .skipped position ∈ History.channel h) : l.policy = .failFast ∧ abort = true := by
  apply ha.skips
  rintro rfl
  rw [ha.channel] at hm
  rcases List.mem_append.mp hm with hm | hm
  · rcases List.mem_filterMap.mp hm with ⟨u, -, hreport⟩
    rcases Option.map_eq_some_iff.mp hreport with ⟨result, -, hdone⟩
    cases hdone
  · simp at hm

/-- The units that started are the first ones of the batch. -/
theorem started_prefix (ha : l.Account abort h ran current skipped left) :
    ran ++ current <+: l.units := by
  rw [ha.units]
  exact ⟨skipped ++ left, by simp⟩

theorem length_starts (ha : l.Account abort h ran current skipped left) :
    (History.starts h).length = (ran ++ current).length := by
  rw [ha.starts, List.length_map]

/-- A unit with few enough units in front of it has started. -/
theorem mem_started {front back : List (Work κ α)} {u : Work κ α}
    (ha : l.Account abort h ran current skipped left) (hu : l.units = front ++ u :: back)
    (hlt : front.length < (History.starts h).length) : u ∈ ran ++ current := by
  rw [ha.length_starts] at hlt
  -- the units that started are a prefix, so they hold all with so few in front
  have hpre : ran ++ current = l.units.take (ran ++ current).length :=
    List.prefix_iff_eq_take.mp ha.started_prefix
  have hget : (ran ++ current)[front.length]? = some u := by
    rw [hpre, List.getElem?_take_of_lt hlt, hu]
    simp
  exact List.mem_of_getElem? hget

end Account

/-- Every record has its account.  Where a job has come to an end of its own nothing is left to be
heard of, unless the unit under way has panicked. -/
theorem At.account {abort : Bool} {stage : Stage κ α} {rest : List (Work κ α)}
    (hat : l.At abort stage rest h) :
    ∃ ran current skipped left, l.Account abort h ran current skipped left ∧
      (Ended stage rest →
        current = [] ∧ left = [] ∨ skipped = [] ∧ ∃ u, current = [u] ∧ u.outcome = .panic) := by
  cases hat with
  | @checking ran skipped _ units passes skips =>
      refine ⟨ran, [], skipped, rest, ⟨by simpa using units, by simp, by simp, ⟨[], by simp⟩,
        fun u hu => (passes u hu).ne_panic, ?_, skips, .inl rfl⟩, ?_⟩
      · intro u hu
        exact passes u (List.dropLast_subset ran (by simpa using hu))
      · rintro ⟨⟩
        exact .inl ⟨rfl, rfl⟩
  | @skipping ran skipped _ u units passes skips =>
      refine ⟨ran, [], skipped, u :: rest, ⟨by simpa using units, by simp, by simp, ⟨[], by simp⟩,
        fun v hv => (passes v hv).ne_panic, ?_, fun _ => skips, .inl rfl⟩, ?_⟩
      · intro v hv
        exact passes v (List.dropLast_subset ran (by simpa using hv))
      · rintro ⟨⟩
  | @running ran _ u performed left units passes effects =>
      refine ⟨ran, [u], [], rest, ⟨by simpa using units, by simp, by simp,
        ⟨performed, by simp [effects]⟩, fun v hv => (passes v hv).ne_panic,
        by simpa using passes, by simp, .inr ⟨u, rfl, rfl⟩⟩, ?_⟩
      intro hended
      -- a running job ends in a panic only
      cases hended with
      | running hu => exact .inr ⟨rfl, u, rfl, hu⟩
  | @reporting ran _ u result units passes outcome raised =>
      refine ⟨ran, [u], [], rest, ⟨by simpa using units, by simp, by simp,
        ⟨u.effects, by simp⟩, fun v hv => (passes v hv).ne_panic,
        by simpa using passes, by simp, .inr ⟨u, rfl, rfl⟩⟩, ?_⟩
      rintro ⟨⟩
  | @draining ran skipped _ u e units passes failure aborts =>
      refine ⟨ran ++ [u], [], skipped, rest, ⟨by simpa using units, by simp, by simp,
        ⟨[], by simp⟩, ?_, by simpa using passes, fun _ => aborts, .inl rfl⟩, ?_⟩
      · intro v hv
        rcases List.mem_append.mp hv with hv | hv
        · exact (passes v hv).ne_panic
        · simp [List.mem_singleton.mp hv, failure]
      · rintro ⟨⟩
        exact .inl ⟨rfl, rfl⟩

end Lane

end ScatterGather
