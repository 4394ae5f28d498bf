import ScatterGather.Proofs.Engine.Abort

/-!
# Order — the units of a batch, one at a time

A batch starts a unit when it is through with the units in front of it, and its job is over only
once the unit that it has started last is through as well.  So what a batch has done is told by the
units that it has started, except while its job performs the effects of one of them.

* `Batch.Passed` : some units have run and nothing more was done;
* `Share.Orderly` : every unit starts behind those in front of it, every job is on the connection of
  its batch, and no job leaves a unit half done;
* `Share.Orderly.step`, `Engine.Serves.orderly` : it holds at any time;
* `Share.Orderly.effects_perm` : all that a call without jobs has done.
-/

namespace ScatterGather

variable {κ α : Type}

/-! ## Batches that pause -/

/-- The units `front` of a batch have run, one after the other, and nothing else was done. -/
structure Batch.Passed (h : History κ α) (front : List (Work κ α)) : Prop where
  starts : History.starts h = front.map (·.position)
  effects : History.effects h = front.flatMap (·.effects)

namespace Batch.Passed

variable {h : History κ α} {front us : List (Work κ α)}

theorem nil : Batch.Passed ([] : History κ α) [] :=
  ⟨rfl, rfl⟩

/-- Units with positions of their own are found again by their starts. -/
theorem eq_filter (hpassed : Batch.Passed h front) (hfront : front <+: us)
    (hpositions : (us.map (·.position)).Nodup) :
    front = us.filter fun u => u.position ∈ History.starts h := by
  rcases hfront with ⟨back, rfl⟩
  have hmem : ∀ u ∈ front, decide (u.position ∈ History.starts h) = true := by
    intro u hu
    simpa [hpassed.starts] using ⟨u, hu, rfl⟩
  have hnone : ∀ u ∈ back, ¬ decide (u.position ∈ History.starts h) = true := by
    intro u hu hstarted
    rw [List.map_append, List.nodup_append] at hpositions
    have hstarted : u.position ∈ front.map (·.position) := by
      simpa [hpassed.starts] using hstarted
    exact hpositions.2.2 _ hstarted _ (List.mem_map_of_mem hu) rfl
  rw [List.filter_append, List.filter_eq_self.mpr hmem, List.filter_eq_nil_iff.mpr hnone,
    List.append_nil]

end Batch.Passed

namespace Lane

variable {l : Lane κ α} {abort : Bool} {h : History κ α}

/-- Between two units, and behind the last effect of one, a batch has run what it has started. -/
theorem At.passed {stage : Stage κ α} {rest : List (Work κ α)} (hat : l.At abort stage rest h)
    (hs : stage.todo = []) : ∃ front, front <+: l.units ∧ Batch.Passed h front := by
  cases hat with
  | @checking ran skipped _ units passes skips =>
      exact ⟨ran, ⟨skipped ++ rest, by simp [units]⟩, by simp, by simp⟩
  | @skipping ran skipped _ u units passes skips =>
      exact ⟨ran, ⟨skipped ++ u :: rest, by simp [units]⟩, by simp, by simp⟩
  | @running ran _ u performed left units passes effects =>
      have hperformed : performed = u.effects := by
        have hleft : left = [] := hs
        rw [effects, hleft, List.append_nil]
      exact ⟨ran ++ [u], ⟨rest, by simp [units]⟩, by simp, by simp [hperformed]⟩
  | @reporting ran _ u result units passes outcome raised =>
      exact ⟨ran ++ [u], ⟨rest, by simp [units]⟩, by simp, by simp⟩
  | @draining ran skipped _ u e units passes failure aborts =>
      exact ⟨ran ++ [u], ⟨skipped ++ rest, by simp [units]⟩, by simp, by simp⟩

/-- A job about to start a unit has run all units in front of it. -/
theorem At.front {u : Work κ α} {rest : List (Work κ α)} (hat : l.At abort .checking (u :: rest) h)
    (hdown : l.policy = .failFast → abort = false) :
    ∃ front, l.units = front ++ u :: rest ∧ Batch.Passed h front := by
  cases hat with
  | @checking ran skipped _ units passes skips =>
      -- nothing was skipped so far, for the flag is down
      have hnil : skipped = [] := by
        by_contra hne
        rcases skips hne with ⟨hfast, hraised⟩
        simp [hdown hfast] at hraised
      subst hnil
      exact ⟨ran, by simpa using units, by simp, by simp⟩

end Lane

namespace Job.Turn

variable {j : Job κ α} {c c' : Call κ α} {p : Progress (Job κ α)} {os : History κ α}

/-- A job comes to its end between two units or at a report. -/
theorem todo_of_left (ht : j.Turn c p c' os) (hp : p.left = []) : j.stage.todo = [] := by
  cases ht with
  | done hs hr => rw [hs]; rfl
  | drained hs hr => rw [hs]; rfl
  | panic hs hu => rw [hs]; rfl
  | depart hs hl => exact hs
  | skip | start | perform | succeed | fail | report | reportSkip | drain =>
      simp [Progress.left] at hp

theorem connection_eq (ht : j.Turn c p c' os) : ∀ j' ∈ p.left, j'.connection = j.connection := by
  cases ht <;> simp [Progress.left]

/-- One step shows one occurrence at most; if that is a start, the job had looked at the flag. -/
theorem shown_cases (ht : j.Turn c p c' os) :
    os = [] ∨ (∃ o, os = [o] ∧ o.start? = none) ∨
      ∃ u rest, os = [.begun (j.site u)] ∧ j.stage = .checking ∧ j.rest = u :: rest ∧
        (c.policy = .failFast → c.abort = false) := by
  cases ht with
  | done | skip | succeed | fail | panic | drained | depart => exact .inl rfl
  | perform | report | reportSkip | drain => exact .inr (.inl ⟨_, rfl, rfl⟩)
  | start hs hr hp => exact .inr (.inr ⟨_, _, rfl, hs, hr, hp⟩)

end Job.Turn

/-! ## Calls -/

/-- What precedes an occurrence either ends a history or lies within it. -/
theorem History.split_snoc {h before after : History κ α} {o o' : Occurrence κ α}
    (heq : h ++ [o'] = before ++ o :: after) :
    (∃ after', h = before ++ o :: after') ∨ h = before ∧ o' = o := by
  rcases List.eq_nil_or_concat after with rfl | ⟨after', x, rfl⟩
  · rcases List.append_inj' heq rfl with ⟨hbefore, hlast⟩
    exact .inr ⟨hbefore, by simpa using hlast⟩
  · rw [List.concat_eq_append, ← List.cons_append, ← List.append_assoc] at heq
    exact .inl ⟨after', (List.append_inj' heq rfl).1⟩

namespace Share

/-- No batch starts a unit before it is through with those in front. -/
def InOrder (t : Task κ α) (h : History κ α) : Prop :=
  ∀ before site after, h = before ++ .begun site :: after →
    ∃ b front u back, t.batches[site.batch]? = some b ∧ b.units = front ++ u :: back ∧
      u.position = site.position ∧ Batch.Passed (History.trail site.batch before) front

/-- What holds of the jobs and the units of a call at any time. -/
structure Orderly (t : Task κ α) (s : Share κ α) : Prop where
  valid : s.Valid t
  order : InOrder t s.history
  /-- A job is on the connection of its batch. -/
  placed : ∀ j ∈ s.jobs, ∃ b, t.batches[j.batch]? = some b ∧ j.connection = b.connection
  /-- A batch without a job has performed all effects of the units that it has started. -/
  spent : ∀ i b, t.batches[i]? = some b → (∀ j ∈ s.jobs, j.batch ≠ i) →
    ∃ front, front <+: b.units ∧ Batch.Passed (History.trail i s.history) front

namespace Orderly

variable {t : Task κ α} {s s' : Share κ α}

theorem start (t : Task κ α) : Orderly t { call := t.start, jobs := 0, history := [] } :=
  ⟨.start t, by simp [InOrder], by simp, fun _ _ _ _ => ⟨[], List.nil_prefix, .nil⟩⟩

section

variable {j : Job κ α} {others : Multiset (Job κ α)} {p : Progress (Job κ α)} {c : Call κ α}
  {os : History κ α}

/-- A unit that a step starts is the next one of its batch. -/
theorem order_turn (h : s.Orderly t) (hj : j ∈ s.jobs) (ht : j.Turn s.call p c os) :
    InOrder t (s.history ++ os) := by
  intro before site after hsplit
  rcases ht.shown_cases with rfl | ⟨o, rfl, hnone⟩ | ⟨u, rest, rfl, hs, hr, hdown⟩
  · rw [List.append_nil] at hsplit
    exact h.order before site after hsplit
  · rcases History.split_snoc hsplit with ⟨after', hearlier⟩ | ⟨-, rfl⟩
    · exact h.order before site after' hearlier
    · cases hnone
  · rcases History.split_snoc hsplit with ⟨after', hearlier⟩ | ⟨hbefore, heq⟩
    · exact h.order before site after' hearlier
    · cases heq
      rcases h.valid.working j hj with ⟨-, b, hb, hat⟩
      rw [hs, hr] at hat
      rcases hat.front (fun hfast => hdown (h.valid.policy.trans hfast)) with
        ⟨front, hunits, hpassed⟩
      exact ⟨b, front, u, rest, hb, hunits, rfl, hbefore ▸ hpassed⟩

theorem spent_turn (h : s.Orderly t) (hj : s.jobs = j ::ₘ others) (ht : j.Turn s.call p c os)
    {i : Nat} {b : Batch κ α} (hb : t.batches[i]? = some b)
    (hjobs : ∀ j' ∈ (↑p.left + others : Multiset (Job κ α)), j'.batch ≠ i) :
    ∃ front, front <+: b.units ∧ Batch.Passed (History.trail i (s.history ++ os)) front := by
  by_cases hi : i = j.batch
  · subst hi
    rcases h.valid.working j (by simp [hj]) with ⟨-, b', hb', hat⟩
    have hsame : b' = b := Option.some.inj (hb'.symm.trans hb)
    subst hsame
    -- the job has just come to its end
    have hnone : p.left = [] := by
      by_contra hne
      rcases List.exists_mem_of_ne_nil _ hne with ⟨j', hj'⟩
      exact hjobs j' (by simp [hj']) (ht.left_eq j' hj').2
    rcases Lane.ended_of_turn ht hnone with ⟨rfl, -⟩
    rw [List.append_nil]
    exact hat.passed (ht.todo_of_left hnone)
  · rw [Valid.trail_other ht hi]
    refine h.spent i b hb ?_
    intro j' hj'
    rw [hj] at hj'
    rcases Multiset.mem_cons.mp hj' with rfl | hj'
    · exact Ne.symm hi
    · exact hjobs j' (by simp [hj'])

theorem work (h : s.Orderly t) (hj : s.jobs = j ::ₘ others) (ht : j.Turn s.call p c os) :
    Orderly t ⟨c, ↑p.left + others, s.history ++ os⟩ := by
  refine ⟨h.valid.work hj ht, h.order_turn (by simp [hj]) ht, ?_, fun i b => h.spent_turn hj ht⟩
  intro j' hj'
  rcases Multiset.mem_add.mp hj' with hleft | hother
  · rcases h.placed j (by simp [hj]) with ⟨b, hb, hconnection⟩
    exact ⟨b, by rw [(ht.left_eq j' hleft).2]; exact hb,
      (ht.connection_eq j' hleft).trans hconnection⟩
  · exact h.placed j' (by simp [hj, hother])

end

/-- A caller adds nothing but the jobs of batches that it sends. -/
theorem caller {c : Call κ α} {new : List (Job κ α)} (h : s.Orderly t)
    (ht : s.call.Turn t.call (s.jobs = 0) c new) :
    Orderly t { s with call := c, jobs := ↑new + s.jobs } := by
  refine ⟨h.valid.caller ht, h.order, ?_, ?_⟩
  · intro j hj
    rcases Multiset.mem_add.mp hj with hnew | hold
    · cases ht with
      | @submit i b left hp =>
          have hsent : j = .ofBatch t.call i b := List.mem_singleton.mp hnew
          exact ⟨b, hsent ▸ (h.valid.waiting i b (by simp [hp])).1, by rw [hsent]; rfl⟩
      | count | listen | gather | stop => exact absurd hnew List.not_mem_nil
    · exact h.placed j hold
  · intro i b hb hjobs
    exact h.spent i b hb fun j hj => hjobs j (Multiset.mem_add.mpr (.inr hj))

theorem step (h : s.Orderly t) (hstep : s.Step t.call s') : s'.Orderly t := by
  have hvalid := h.valid.step hstep
  cases hstep with
  | call ht => exact h.caller ht
  | collect hp => exact ⟨hvalid, h.order, h.placed, h.spent⟩
  | work hj ht => exact h.work hj ht

/-- Of the units that a batch has run only the last can have kept those behind it from running. -/
theorem passes_of_passed (h : s.Orderly t) {l : Lane κ α} (hl : l ∈ t.lanes)
    {front : List (Work κ α)} (hfront : front <+: l.units)
    (hpassed : Batch.Passed (History.trail l.batch s.history) front) :
    ∀ u ∈ front.dropLast, u.Passes t.policy := by
  rcases h.valid.account hl with ⟨ran, current, skipped, left, ha⟩
  -- the units that have started are those in front
  have hlength := congrArg List.length (hpassed.starts.symm.trans ha.starts)
  rw [List.length_map, List.length_map] at hlength
  have hsame : front = ran ++ current :=
    (List.prefix_of_prefix_length_le hfront ha.started_prefix hlength.le).eq_of_length hlength
  rw [hsame]
  exact Task.policy_of_mem hl ▸ ha.passes

/-- What a call without jobs has done, batch by batch: the effects of the units that have started,
and of no other. -/
theorem effects_perm (h : s.Orderly t) (hquiet : s.jobs = 0)
    (hpositions : ∀ b ∈ t.batches, (b.units.map (·.position)).Nodup) :
    (History.effects s.history).Perm (t.lanes.flatMap fun l =>
      (l.units.filter fun u =>
        u.position ∈ History.starts (History.trail l.batch s.history)).flatMap (·.effects)) := by
  refine h.valid.filterMap_perm Occurrence.effect? ?_
  intro l hl
  rcases Task.mem_lanes.mp hl with ⟨i, b, hb, rfl⟩
  rcases h.spent i b hb (by simp [hquiet]) with ⟨front, hfront, hpassed⟩
  have hran := hpassed.eq_filter hfront (hpositions b (List.mem_of_getElem? hb))
  exact hpassed.effects.trans (congrArg _ hran)

end Orderly

end Share

namespace Engine

variable {threads : Nat} {t : Task κ α} {e : Engine κ α (History κ α)}

theorem Serves.orderly (h : e.Serves threads t) :
    ∃ s, e.share? t.call = some s ∧ s.Orderly t :=
  h.share (.start t) Share.Orderly.step

end Engine

end ScatterGather
