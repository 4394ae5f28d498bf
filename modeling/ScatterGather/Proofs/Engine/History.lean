import ScatterGather.Proofs.Pool.Jobs
import ScatterGather.Engine
import ScatterGather.Proofs.Run

/-!
# History — an engine whose world is the list of everything that happened

The steps of an engine change its world and never look at it.  So nothing is lost by taking for the
world the plain list of all occurrences: what is shown there about the order of units, reports and
effects carries over to every other world by replaying that list into it.

* `History.note` : the oldest occurrence comes first;
* `History.trail` : what one batch of a call has done;
* `History.channel`, `History.starts`, `History.effects` : the reports, the starts and the effects
  in a history;
* `Job.advance_eq_replay`, `Engine.step?_withWorld` : steps in any world, by the occurrences that
  the recorded step adds.
-/

namespace ScatterGather

variable {κ α ω ω' : Type}

namespace Occurrence

def site : Occurrence κ α → Site
  | begun s => s
  | performed s _ => s
  | reported s _ => s

def report? : Occurrence κ α → Option (Report α)
  | reported _ r => some r
  | _ => none

/-- The position of a unit that starts. -/
def start? : Occurrence κ α → Option Nat
  | begun s => some s.position
  | _ => none

def effect? : Occurrence κ α → Option κ
  | performed _ x => some x
  | _ => none

end Occurrence

abbrev History (κ α : Type) : Type :=
  List (Occurrence κ α)

namespace History

def note (o : Occurrence κ α) (h : History κ α) : History κ α :=
  h ++ [o]

/-- What belongs to one call. -/
def ofCall (call : Nat) (h : History κ α) : History κ α :=
  h.filter fun o => o.site.call == call

/-- What belongs to one batch, among the occurrences of its call. -/
def trail (batch : Nat) (h : History κ α) : History κ α :=
  h.filter fun o => o.site.batch == batch

/-- The reports in the order in which they were sent. -/
def channel (h : History κ α) : List (Report α) :=
  h.filterMap Occurrence.report?

/-- The positions of the units that were started, in that order. -/
def starts (h : History κ α) : List Nat :=
  h.filterMap Occurrence.start?

/-- What the units have done to the world, in that order. -/
def effects (h : History κ α) : List κ :=
  h.filterMap Occurrence.effect?

/-- What a world becomes once everything in the history has happened to it. -/
def replay (note : Occurrence κ α → ω → ω) (h : History κ α) (world : ω) : ω :=
  h.foldl (fun world o => note o world) world

section

variable (h h' : History κ α) (o : Occurrence κ α)

@[simp] theorem ofCall_append (call : Nat) :
    ofCall call (h ++ h') = ofCall call h ++ ofCall call h' := by
  simp [ofCall]

@[simp] theorem trail_append (batch : Nat) :
    trail batch (h ++ h') = trail batch h ++ trail batch h' := by
  simp [trail]

@[simp] theorem channel_append : channel (h ++ h') = channel h ++ channel h' := by
  simp [channel]

@[simp] theorem starts_append : starts (h ++ h') = starts h ++ starts h' := by
  simp [starts]

@[simp] theorem effects_append : effects (h ++ h') = effects h ++ effects h' := by
  simp [effects]

@[simp] theorem replay_nil (note : Occurrence κ α → ω → ω) (world : ω) :
    replay note [] world = world := rfl

@[simp] theorem replay_append (note : Occurrence κ α → ω → ω) (world : ω) :
    replay note (h ++ h') world = replay note h' (replay note h world) := by
  simp [replay]

theorem replay_note : replay note h h' = h' ++ h := by
  induction h generalizing h' with
  | nil => simp
  | cons o h ih =>
      have hcons : replay note (o :: h) h' = replay note h (note o h') := rfl
      simp [hcons, ih, note]

/-- Occurrences of one batch of one call leave all others as they are. -/
theorem ofCall_of_site {call : Nat} (hs : ∀ o ∈ h, o.site.call = call) : ofCall call h = h := by
  simpa [ofCall] using hs

theorem ofCall_of_ne {call : Nat} (hs : ∀ o ∈ h, o.site.call ≠ call) : ofCall call h = [] := by
  simpa [ofCall] using hs

theorem trail_of_site {batch : Nat} (hs : ∀ o ∈ h, o.site.batch = batch) : trail batch h = h := by
  simpa [trail] using hs

theorem trail_of_ne {batch : Nat} (hs : ∀ o ∈ h, o.site.batch ≠ batch) : trail batch h = [] := by
  simpa [trail] using hs

end

end History

/-! ## Steps do not look at the world -/

open History

namespace Job

theorem report_eq_replay (note : Occurrence κ α → ω → ω) (j : Job κ α) (u : Work κ α)
    (r : Report α) (next : Stage κ α) (c : Call κ α) (world : ω) :
    j.report note u r next c world =
      ((j.report History.note u r next c []).1, (j.report History.note u r next c []).2.1,
        replay note (j.report History.note u r next c []).2.2 world) := by
  by_cases hc : c.isListening <;> simp [report, hc, History.note, replay]

/-- The step of a job in any world is its recorded step, replayed. -/
theorem advance_eq_replay (note : Occurrence κ α → ω → ω) (j : Job κ α) (c : Call κ α)
    (world : ω) :
    j.advance note c world =
      ((j.advance History.note c []).1, (j.advance History.note c []).2.1,
        replay note (j.advance History.note c []).2.2 world) := by
  rcases j with ⟨call, batch, connection, stage, rest⟩
  cases stage with
  | checking =>
      cases rest with
      | nil => rfl
      | cons u rest =>
          by_cases hskip : c.policy = .failFast ∧ c.abort
          · simp [advance, hskip]
          · simp [advance, hskip, History.note, replay]
  | skipping u => exact report_eq_replay note _ u _ _ c world
  | running u left =>
      cases left with
      | nil => cases hu : u.outcome <;> simp [advance, hu]
      | cons x left => rfl
  | reporting u result =>
      cases result with
      | ok a => exact report_eq_replay note _ u _ _ c world
      | error e => exact report_eq_replay note _ u _ _ c world
  | draining =>
      cases rest with
      | nil => rfl
      | cons u rest => exact report_eq_replay note _ u _ _ c world

end Job

namespace Engine

/-- The same engine in another world. -/
def withWorld (e : Engine κ α ω) (world : ω') : Engine κ α ω' :=
  { pool := e.pool, calls := e.calls, world }

@[simp] theorem withWorld_pool (e : Engine κ α ω) (world : ω') :
    (e.withWorld world).pool = e.pool := rfl

@[simp] theorem withWorld_calls (e : Engine κ α ω) (world : ω') :
    (e.withWorld world).calls = e.calls := rfl

@[simp] theorem withWorld_world (e : Engine κ α ω) (world : ω') :
    (e.withWorld world).world = world := rfl

@[simp] theorem withWorld_jobs (e : Engine κ α ω) (world : ω') :
    (e.withWorld world).jobs = e.jobs := rfl

theorem advance_eq_replay (note : Occurrence κ α → ω → ω) (j : Job κ α)
    (calls : List (Call κ α)) (world : ω) :
    advance note j (calls, world) =
      ((advance History.note j (calls, [])).1, (advance History.note j (calls, [])).2.1,
        replay note (advance History.note j (calls, [])).2.2 world) := by
  cases hc : calls[j.call]? with
  | none => simp [advance, hc]
  | some c =>
      simp only [advance, hc]
      rw [j.advance_eq_replay note c world]

theorem callerStep?_withWorld (e : Engine κ α ω) (world : ω') (k : Nat) :
    (e.withWorld world).callerStep? k = (e.callerStep? k).map (·.withWorld world) := by
  cases hc : e.calls[k]? with
  | none => simp [callerStep?, hc]
  | some c =>
      rcases c with ⟨policy, queryId, total, phase, abort, inbox, slots, first, failed, received⟩
      simp only [callerStep?, withWorld_calls, hc, Option.bind_eq_bind, Option.bind_some]
      cases phase with
      | submitting left => cases left <;> rfl
      | counting left => rfl
      | gathering =>
          cases inbox with
          | cons r rest => rfl
          | nil =>
              have hquiet : (e.withWorld world).hasReporter k = e.hasReporter k := rfl
              cases hr : e.hasReporter k <;> simp only [hquiet, hr] <;> rfl
      | returned answer => rfl
      | «over» => rfl

/-- A step in any world is the recorded step, whose occurrences are replayed. -/
theorem step?_withWorld {note : Occurrence κ α → ω → ω} {e e' : Engine κ α ω} {m : Move}
    (h : e.step? note m = some e') : ∃ os, e'.world = replay note os e.world ∧
      ∀ past, (e.withWorld past).step? History.note m = some (e'.withWorld (past ++ os)) := by
  cases m with
  | caller k =>
      have hstep : e.callerStep? k = some e' := h
      have hself := callerStep?_withWorld e e.world k
      rw [hstep, show e.withWorld e.world = e from rfl, hstep] at hself
      have hsame : e' = e'.withWorld e.world := Option.some.inj hself
      have hworld : e'.world = e.world := by
        rw [hsame]
        rfl
      refine ⟨[], hworld, fun past => ?_⟩
      rw [List.append_nil]
      exact (callerStep?_withWorld e past k).trans (by rw [hstep]; rfl)
  | worker w =>
      simp only [step?, Option.map_eq_some_iff] at h
      rcases h with ⟨⟨pool, calls, world⟩, hwork, rfl⟩
      -- the pool makes the same move whatever the jobs write to
      have hsame {pool : Pool (Job κ α)} {calls : List (Call κ α)} {past after : History κ α}
          (hshift : e.pool.Shift (advance History.note) (e.calls, past) w pool (calls, after)) :
          (e.withWorld past).step? History.note (.worker w) = some ⟨pool, calls, after⟩ := by
        have hmove := hshift.work?
        simp only [step?, withWorld_pool, withWorld_calls, withWorld_world, hmove]
        rfl
      cases Pool.work?_shift hwork with
      | take hw hq =>
          exact ⟨[], rfl, fun past => by rw [List.append_nil]; exact hsame (.take hw hq)⟩
      | leave hw hq hc =>
          exact ⟨[], rfl, fun past => by rw [List.append_nil]; exact hsame (.leave hw hq hc)⟩
      | countPanic hw =>
          exact ⟨[], rfl, fun past => by rw [List.append_nil]; exact hsame (.countPanic hw)⟩
      | countEnd hw =>
          exact ⟨[], rfl, fun past => by rw [List.append_nil]; exact hsame (.countEnd hw)⟩
      | @advance j progress _ hw hadv =>
          rw [advance_eq_replay] at hadv
          rcases hstep : advance History.note j (e.calls, []) with ⟨p', calls', os⟩
          rw [hstep] at hadv
          cases hadv
          refine ⟨os, rfl, fun past => hsame (.advance hw ?_)⟩
          rw [advance_eq_replay, hstep, replay_note]

/-- What is recorded can be done in any world. -/
theorem step?_of_recorded (note : Occurrence κ α → ω → ω) {e : Engine κ α ω} {m : Move}
    {past : History κ α} {a : Engine κ α (History κ α)}
    (h : (e.withWorld past).step? History.note m = some a) : ∃ e', e.step? note m = some e' := by
  have hpossible : (e.step? note m).isSome = ((e.withWorld past).step? History.note m).isSome := by
    cases m with
    | caller k =>
        have hmap : (e.withWorld past).step? History.note (.caller k) =
            (e.callerStep? k).map (·.withWorld past) := callerStep?_withWorld e past k
        rw [hmap, Option.isSome_map]
        rfl
    | worker w =>
        simp only [step?, Option.isSome_map]
        exact Pool.isSome_work? ..
  rwa [h, Option.isSome_some, Option.isSome_iff_exists] at hpossible

end Engine

end ScatterGather
