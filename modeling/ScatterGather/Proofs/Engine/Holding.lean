import ScatterGather.Proofs.Engine.Order
import ScatterGather.Proofs.Engine.Returns

/-!
# Holding — the connections that a call keeps open

Where values keep open no connection but that of their batch, a call and its jobs hold none but
those of the call, wherever the values are on their way.  A caller that has returned holds what is
in its answer and nothing else.

* `Task.Owning` : values that keep open at most the connection of their batch;
* `Call.Cleared` : a caller that has returned has thrown away what it was not asked for;
* `Share.Orderly.job_held`, `Share.Valid.call_held` : what a job and a caller hold;
* `Share.Answered.slotsHeld_perm` : what an answer holds, unit by unit.
-/

namespace ScatterGather

variable {κ α : Type} {holds : α → List Connection}

/-! ## Values -/

/-- What the value of a unit keeps open. -/
def Work.held (holds : α → List Connection) (u : Work κ α) : List Connection :=
  match u.outcome with
  | .value a => holds a
  | _ => []

theorem Work.held_of_value {u : Work κ α} {a : α} (h : u.outcome = .value a) :
    u.held holds = holds a := by
  simp only [held, h]

theorem Outcome.eq_value_of_result {o : Outcome α} {a : α} (h : o.result? = some (.ok a)) :
    o = .value a := by
  cases o with
  | value b =>
      cases h
      rfl
  | failure e => cases h
  | panic => cases h

namespace Task

def connections (t : Task κ α) : List Connection :=
  t.batches.map Batch.connection

/-- No value keeps a connection open but that of its batch. -/
def Owning (holds : α → List Connection) (t : Task κ α) : Prop :=
  ∀ b ∈ t.batches, ∀ u ∈ b.units, ∀ c ∈ u.held holds, c = b.connection

theorem mem_connections {t : Task κ α} {i : Nat} {b : Batch κ α} (hb : t.batches[i]? = some b) :
    b.connection ∈ t.connections :=
  List.mem_map_of_mem (List.mem_of_getElem? hb)

theorem Owning.mem {t : Task κ α} (h : t.Owning holds) {u : Work κ α} (hu : u ∈ t.units)
    {c : Connection} (hc : c ∈ u.held holds) : c ∈ t.connections := by
  rcases List.mem_flatMap.mp hu with ⟨b, hb, hub⟩
  exact h b hb u hub c hc ▸ List.mem_map_of_mem hb

end Task

/-! ## Jobs -/

/-- A job that is about to report a value has it from a unit of its batch. -/
theorem Lane.At.stage_held {l : Lane κ α} {abort : Bool} {stage : Stage κ α}
    {rest : List (Work κ α)} {h : History κ α} (hat : l.At abort stage rest h) :
    ∀ c ∈ stage.held holds, ∃ u ∈ l.units, c ∈ u.held holds := by
  intro c hc
  cases hat with
  | checking | skipping | running | draining => cases hc
  | @reporting ran rest u result units passes outcome raised =>
      cases result with
      | error e => cases hc
      | ok a =>
          refine ⟨u, by simp [units], ?_⟩
          rwa [Work.held_of_value (Outcome.eq_value_of_result outcome)]

namespace Share

variable {t : Task κ α} {s : Share κ α} {c : Connection}

theorem Orderly.job_held (h : s.Orderly t) (howns : t.Owning holds) {j : Job κ α}
    (hj : j ∈ s.jobs) (hc : c ∈ j.held holds) : c ∈ t.connections := by
  rcases List.mem_cons.mp hc with rfl | hc
  · rcases h.placed j hj with ⟨b, hb, hconnection⟩
    exact hconnection ▸ Task.mem_connections hb
  · rcases h.valid.working j hj with ⟨-, b, hb, hat⟩
    rcases hat.stage_held c hc with ⟨u, hu, hcu⟩
    exact howns b (List.mem_of_getElem? hb) u hu c hcu ▸ Task.mem_connections hb

end Share

/-! ## Callers -/

/-- A caller that has returned has neither reports nor slots. -/
def Call.Cleared (c : Call κ α) : Prop :=
  c.isListening = false → c.inbox = [] ∧ c.slots = []

namespace Call.Cleared

theorem new (policy : Policy) (queryId : Nat) (batches : List (Batch κ α)) :
    (Call.new policy queryId batches).Cleared := by
  intro hdeaf
  refine ⟨rfl, ?_⟩
  by_cases hzero : (batches.flatMap (·.units)).length = 0
  · simp [Call.new, hzero]
  · -- a call with units is still sending its batches
    have hphase : (Call.new policy queryId batches).phase =
        .submitting (batches.zipIdx.map Prod.swap) := if_neg hzero
    simp [isListening, hphase] at hdeaf

theorem finish (c : Call κ α) (answer : Answer α) : (c.finish answer).Cleared :=
  fun _ => ⟨rfl, rfl⟩

theorem of_listening {c : Call κ α} (h : c.isListening = true) : c.Cleared :=
  fun hdeaf => absurd h (by simp [hdeaf])

theorem caller {k : Nat} {quiet : Prop} {c c' : Call κ α} {new : List (Job κ α)}
    (ht : c.Turn k quiet c' new) : c'.Cleared := by
  cases ht with
  | submit | count | listen => exact of_listening rfl
  | @gather r rest hp hi =>
      rcases ({ c with inbox := rest }).gather_cases r with ⟨c₁, halike, hsame | ⟨answer, hfinish⟩⟩
      · have hphase : c₁.phase = .gathering := halike.phase.trans hp
        exact hsame ▸ of_listening (by simp [isListening, hphase])
      · exact hfinish ▸ finish c₁ answer
  | stop => exact finish c _

theorem job {j : Job κ α} {c c' : Call κ α} {p : Progress (Job κ α)} {os : History κ α}
    (h : c.Cleared) (ht : j.Turn c p c' os) : c'.Cleared := by
  cases ht with
  | report hs hl => exact of_listening hl
  | reportSkip hs hl => exact of_listening hl
  | drain hs hr hl => exact of_listening hl
  | fail => exact h
  | done | skip | start | perform | succeed | panic | drained | depart => exact h

theorem step {k : Nat} {s s' : Share κ α} (h : s.call.Cleared) (hstep : s.Step k s') :
    s'.call.Cleared := by
  cases hstep with
  | call ht => exact caller ht
  | collect hp => exact fun _ => h (by simp [isListening, hp])
  | work hj ht => exact h.job ht

theorem held_eq {c : Call κ α} (h : c.Cleared) (hdeaf : c.isListening = false) :
    c.held holds = c.phase.held holds := by
  rcases h hdeaf with ⟨hinbox, hslots⟩
  simp [Call.held, hinbox, hslots, slotsHeld]

end Call.Cleared

theorem mem_slotsHeld {slots : List (Option α)} {c : Connection} :
    c ∈ slotsHeld holds slots ↔ ∃ a, some a ∈ slots ∧ c ∈ holds a := by
  simp only [slotsHeld, List.mem_flatMap]
  constructor
  · rintro ⟨slot, hslot, hc⟩
    cases slot with
    | none => cases hc
    | some a => exact ⟨a, hslot, hc⟩
  · rintro ⟨a, ha, hc⟩
    exact ⟨some a, ha, hc⟩

namespace Share

variable {t : Task κ α} {s : Share κ α} {c : Connection}

/-- What was reported is the value of a unit, and holds what that holds. -/
theorem Valid.mem_of_done (v : s.Valid t) (howns : t.Owning holds) {position : Nat} {a : α}
    (hm : .done position (.ok a) ∈ History.channel s.history) (hc : c ∈ holds a) :
    c ∈ t.connections := by
  rcases v.of_done hm with ⟨l, hl, front, u, back, hu, -, hresult, -⟩
  have hmem : u ∈ l.units := by simp [hu]
  refine howns.mem (Task.mem_units hl hmem) ?_
  rwa [Work.held_of_value (Outcome.eq_value_of_result hresult)]

/-- A caller that still listens has its values from reports. -/
theorem Valid.listening_held (v : s.Valid t) (howns : t.Owning holds)
    (hlisten : s.call.isListening = true) (hc : c ∈ s.call.held holds) : c ∈ t.connections := by
  rcases v.listening hlisten with ⟨got, htallied, -, hchannel⟩
  rcases List.mem_append.mp hc with hc | hslots
  · rcases List.mem_append.mp hc with hphase | hinbox
    · -- the batches that are still to be sent
      have hleft : c ∈ s.call.phase.left.map fun b => b.2.connection := by
        cases hp : s.call.phase with
        | submitting left => simpa [hp, Phase.held] using hphase
        | counting left => simpa [hp, Phase.held] using hphase
        | gathering => simp [hp, Phase.held] at hphase
        | returned answer => simp [Call.isListening, hp] at hlisten
        | «over» => simp [Call.isListening, hp] at hlisten
      rcases List.mem_map.mp hleft with ⟨⟨i, b⟩, hb, rfl⟩
      exact Task.mem_connections (v.waiting i b hb).1
    · rcases List.mem_flatMap.mp hinbox with ⟨r, hr, hcr⟩
      have hmem : r ∈ History.channel s.history := hchannel ▸ List.mem_append_right got hr
      cases r with
      | skipped position => cases hcr
      | done position result =>
          cases result with
          | error e => cases hcr
          | ok a => exact v.mem_of_done howns hmem hcr
  · rcases mem_slotsHeld.mp hslots with ⟨a, ha, hca⟩
    rw [htallied.slots] at ha
    rcases List.getElem?_of_mem ha with ⟨position, hposition⟩
    have hlt : position < s.call.total := by
      simpa using (List.getElem?_eq_some_iff.mp hposition).1
    -- a slot that is not empty has a report behind it
    rcases Report.getElem?_placeAll got hlt with ⟨hnone, -⟩ | ⟨b, hb, hmem⟩
    · rw [hnone] at hposition
      cases hposition
    · rw [hb] at hposition
      cases hposition
      exact v.mem_of_done howns (hchannel ▸ List.mem_append_left _ hmem) hca

/-- What an answer holds is what the values of the units hold. -/
theorem Answered.slotsHeld_perm {slots : List (Option α)} (h : s.Answered t (.ok slots))
    (v : s.Valid t) (hnum : t.Numbered) :
    (slotsHeld holds slots).Perm (t.units.flatMap (Work.held holds)) := by
  rcases h.slots v hnum with ⟨hlength, -, hvalues⟩
  have hslots : slots = (List.range t.total).map fun position => slots[position]?.join := by
    apply List.ext_getElem (by simp [hlength])
    intro position hlt _
    simp [hlt]
  -- position by position, and so unit by unit
  have hunits : ((t.units.map Work.position).flatMap fun position =>
      (slots[position]?.join.map holds).getD []) = t.units.flatMap (Work.held holds) := by
    rw [List.flatMap_map]
    refine List.flatMap_congr fun u hu => ?_
    rcases hvalues u hu with ⟨a, ha, hslot⟩
    simp [hslot, Work.held_of_value ha]
  rw [slotsHeld, hslots, List.flatMap_map, ← hunits]
  exact hnum.symm.flatMap_right _

theorem Valid.call_held (v : s.Valid t) (hcleared : s.call.Cleared) (hnum : t.Numbered)
    (howns : t.Owning holds) (hc : c ∈ s.call.held holds) : c ∈ t.connections := by
  cases hlisten : s.call.isListening with
  | true => exact v.listening_held howns hlisten hc
  | false =>
      rw [hcleared.held_eq hlisten] at hc
      rcases v.answered hlisten with ⟨answer, hanswered, hphase | hphase⟩
      · rw [hphase] at hc
        cases answer with
        | error e => cases hc
        | ok slots =>
            rcases List.mem_flatMap.mp ((hanswered.slotsHeld_perm v hnum).subset hc) with
              ⟨u, hu, hcu⟩
            exact howns.mem hu hcu
      · rw [hphase] at hc
        cases hc

end Share

namespace Engine

variable {threads : Nat} {t : Task κ α} {e : Engine κ α (History κ α)}

theorem Serves.cleared (h : e.Serves threads t) :
    ∃ s, e.share? t.call = some s ∧ s.Orderly t ∧ s.call.Cleared :=
  h.share (P := fun s => s.Orderly t ∧ s.call.Cleared) ⟨.start t, Call.Cleared.new _ _ _⟩
    fun hs hstep => ⟨hs.1.step hstep, hs.2.step hstep⟩

end Engine

end ScatterGather
