import ScatterGather.Proofs.Engine.Service

/-!
# Effects — an engine performs nothing but what was brought to it

Steps take units apart and never make new ones.  So a property of all effects that are left to an
engine holds of every effect that it will perform.

* `Engine.Brings` : a property of all effects that are left, by the call that they belong to;
* `Engine.Brings.step`, `Engine.Brings.run` : steps and runs keep it, and perform only such effects.
-/

namespace ScatterGather

variable {κ α ω : Type}

def Work.All (P : κ → Prop) (u : Work κ α) : Prop :=
  ∀ x ∈ u.effects, P x

def Job.All (P : κ → Prop) (j : Job κ α) : Prop :=
  (∀ u ∈ j.rest, u.All P) ∧ ∀ x ∈ j.stage.todo, P x

def Call.All (P : κ → Prop) (c : Call κ α) : Prop :=
  ∀ b ∈ c.phase.left, ∀ u ∈ b.2.units, u.All P

namespace Job.Turn

variable {P : κ → Prop} {j : Job κ α} {c c' : Call κ α} {p : Progress (Job κ α)}
  {os : History κ α}

/-- A job performs the effects of its units. -/
theorem all (h : j.Turn c p c' os) (hj : j.All P) :
    (∀ j' ∈ p.left, j'.All P) ∧ ∀ o ∈ os, ∀ x, o.effect? = some x → P x := by
  rcases hj with ⟨hrest, htodo⟩
  have hnone : ∀ x ∈ ([] : List κ), P x := by simp
  cases h with
  | done | panic | drained | depart => simp [Progress.left]
  | @skip u rest hs hr =>
      have htail : ∀ v ∈ rest, v.All P := fun v hv => hrest v (hr ▸ List.mem_cons_of_mem _ hv)
      exact ⟨by simpa [Progress.left] using ⟨htail, hnone⟩, by simp⟩
  | @start u rest hs hr =>
      have htail : ∀ v ∈ rest, v.All P := fun v hv => hrest v (hr ▸ List.mem_cons_of_mem _ hv)
      have hfirst : u.All P := hrest u (hr ▸ List.mem_cons_self ..)
      exact ⟨by simpa [Progress.left] using ⟨htail, hfirst⟩, by simp [Occurrence.effect?]⟩
  | @perform u x left hs =>
      rw [hs] at htodo
      have hleft : ∀ y ∈ left, P y := fun y hy => htodo y (List.mem_cons_of_mem _ hy)
      have hx : P x := htodo x (List.mem_cons_self ..)
      exact ⟨by simpa [Progress.left] using ⟨hrest, hleft⟩, by simpa [Occurrence.effect?] using hx⟩
  | succeed hs =>
      exact ⟨by simpa [Progress.left] using ⟨hrest, hnone⟩, by simp⟩
  | fail hs =>
      exact ⟨by simpa [Progress.left] using ⟨hrest, hnone⟩, by simp⟩
  | @report u result hs =>
      -- behind a report no effect is under way
      have hafter : (Stage.afterReport c.policy result : Stage κ α).todo = [] := by
        cases result with
        | ok a => rfl
        | error e => cases hp : c.policy <;> rfl
      exact ⟨by simpa [Progress.left, Job.All, hafter] using hrest, by simp [Occurrence.effect?]⟩
  | reportSkip hs =>
      exact ⟨by simpa [Progress.left] using ⟨hrest, hnone⟩, by simp [Occurrence.effect?]⟩
  | @drain u rest hs hr =>
      have htail : ∀ v ∈ rest, v.All P := fun v hv => hrest v (hr ▸ List.mem_cons_of_mem _ hv)
      exact ⟨by simpa [Progress.left] using ⟨htail, hnone⟩, by simp [Occurrence.effect?]⟩

end Job.Turn

theorem Call.Turn.all {P : κ → Prop} {k : Nat} {quiet : Prop} {c c' : Call κ α}
    {new : List (Job κ α)} (h : c.Turn k quiet c' new) (hc : c.All P) :
    c'.All P ∧ ∀ j ∈ new, j.All P ∧ j.call = k := by
  cases h with
  | @submit i b left hp =>
      simp only [Call.All, hp, Phase.left_submitting] at hc
      refine ⟨fun b' hb' => hc b' (List.mem_cons_of_mem _ hb'), ?_⟩
      intro j hj
      cases List.mem_singleton.mp hj
      exact ⟨⟨hc (i, b) (List.mem_cons_self ..), by simp [Job.ofBatch, Stage.todo]⟩, rfl⟩
  | count hp =>
      simp only [Call.All, hp, Phase.left_counting] at hc
      exact ⟨hc, by simp⟩
  | listen hp => exact ⟨by simp [Call.All], by simp⟩
  | @gather r rest hp hi =>
      refine ⟨?_, by simp⟩
      rcases gather_phase { c with inbox := rest } r with ⟨hphase, -⟩ | ⟨answer, hphase, -⟩
      · -- a caller that takes a report has nothing more to send
        have hgathering := hphase.trans hp
        simp [Call.All, hgathering]
      · simp [Call.All, hphase]
  | stop hp hi => exact ⟨by simp [Call.All, finish], by simp⟩

namespace Engine

/-- All effects that are left have the property of their call. -/
structure Brings (P : Nat → κ → Prop) (e : Engine κ α ω) : Prop where
  calls : ∀ (k : Nat) (c : Call κ α), e.calls[k]? = some c → c.All (P k)
  jobs : ∀ j ∈ e.pool.jobs, j.All (P j.call)

namespace Brings

variable {P : Nat → κ → Prop} {note : Occurrence κ α → ω → ω} {e e' : Engine κ α ω}

theorem mono {Q : Nat → κ → Prop} (hPQ : ∀ k x, k < e.calls.length → P k x → Q k x)
    (hservice : e.InService) (h : e.Brings P) : e.Brings Q := by
  constructor
  · intro k c hc b hb u hu x hx
    have hk : k < e.calls.length := (List.getElem?_eq_some_iff.mp hc).1
    exact hPQ k x hk (h.calls k c hc b hb u hu x hx)
  · intro j hj
    have hk := hservice.known j hj
    rcases h.jobs j hj with ⟨hrest, htodo⟩
    exact ⟨fun u hu x hx => hPQ _ x hk (hrest u hu x hx), fun x hx => hPQ _ x hk (htodo x hx)⟩

theorem start {c : Call κ α} (h : e.Brings P) (hc : c.All (P e.calls.length)) :
    (e.start c).Brings P := by
  refine ⟨?_, h.jobs⟩
  intro k c' hc'
  by_cases hlt : k < e.calls.length
  · rw [Engine.start, List.getElem?_append_left hlt] at hc'
    exact h.calls k c' hc'
  · -- the new call is the last one
    have hk : k = e.calls.length := by
      have hle := (List.getElem?_eq_some_iff.mp hc').1
      simp only [Engine.start, List.length_append, List.length_singleton] at hle
      omega
    subst hk
    simp only [Engine.start, List.getElem?_concat_length, Option.some.injEq] at hc'
    exact hc' ▸ hc

/-- What is brought stays brought, and what is performed was brought. -/
theorem step {m : Move} (h : e.Brings P) (hstep : e.step? note m = some e') :
    e'.Brings P ∧ ∃ os, e'.world = History.replay note os e.world ∧
      ∀ o ∈ os, ∀ x, o.effect? = some x → P o.site.call x := by
  -- one call changes and the others stay
  have hset {k : Nat} {c c' : Call κ α} (hc : e.calls[k]? = some c) (hc' : c'.All (P k)) :
      ∀ (n : Nat) (d : Call κ α), (e.calls.set k c')[n]? = some d → d.All (P n) := by
    intro n d hd
    by_cases hkn : k = n
    · subst hkn
      rw [List.getElem?_set_self (List.getElem?_eq_some_iff.mp hc).1, Option.some.injEq] at hd
      exact hd ▸ hc'
    · rw [List.getElem?_set_ne hkn] at hd
      exact h.calls n d hd
  cases m with
  | caller k =>
      rcases callerStep?_turn hstep with ⟨c, c', new, hc, hturn, hcalls, hfed, hworld⟩
      rcases hturn.all (h.calls k c hc) with ⟨hc', hnew⟩
      refine ⟨⟨hcalls ▸ hset hc hc', ?_⟩, [], hworld, by simp⟩
      intro j hj
      rw [hfed.jobs_eq] at hj
      rcases Multiset.mem_add.mp hj with hj | hj
      · rcases hnew j hj with ⟨hall, hcall⟩
        exact hcall ▸ hall
      · exact h.jobs j hj
  | worker w =>
      rcases workerStep?_turn hstep with
        ⟨hcalls, hworld, hsame | ⟨j, -, hdrop⟩⟩ |
          ⟨j, others, p, c, c', os, hj, hc, hturn, hcalls, hworld, hpool⟩
      · exact ⟨⟨hcalls ▸ h.calls, hsame ▸ h.jobs⟩, [], hworld, by simp⟩
      · refine ⟨⟨hcalls ▸ h.calls, fun j' hj' => h.jobs j' ?_⟩, [], hworld, by simp⟩
        exact hdrop ▸ Multiset.mem_cons_of_mem hj'
      · have hmem : j ∈ e.pool.jobs := by simp [hj]
        rcases hturn.all (h.jobs j hmem) with ⟨hleft, hos⟩
        have hc' : c'.All (P j.call) := by
          simpa only [Call.All, hturn.phase_eq] using h.calls j.call c hc
        refine ⟨⟨hcalls ▸ hset hc hc', ?_⟩, os, hworld, ?_⟩
        · intro j' hj'
          rw [hpool] at hj'
          rcases Multiset.mem_add.mp hj' with hj' | hj'
          · exact (hturn.left_eq j' hj').1 ▸ hleft j' hj'
          · exact h.jobs j' (by simp [hj, hj'])
        · intro o ho x hx
          exact (hturn.site_eq o ho).1 ▸ hos o ho x hx

/-- The history of a run has no effects but those that were brought. -/
theorem run {e e' : Engine κ α (History κ α)} (h : e.Brings P)
    (hworld : ∀ o ∈ e.world, ∀ x, o.effect? = some x → P o.site.call x)
    (hrun : Run (step? History.note) e e') :
    e'.Brings P ∧ ∀ o ∈ e'.world, ∀ x, o.effect? = some x → P o.site.call x := by
  refine Run.preserves (P := fun e : Engine κ α (History κ α) =>
    e.Brings P ∧ ∀ o ∈ e.world, ∀ x, o.effect? = some x → P o.site.call x) ?_ hrun ⟨h, hworld⟩
  rintro e e' m ⟨h, hworld⟩ hstep
  rcases h.step hstep with ⟨h', os, hreplay, hos⟩
  refine ⟨h', ?_⟩
  rw [hreplay, History.replay_note]
  intro o ho
  rcases List.mem_append.mp ho with ho | ho
  · exact hworld o ho
  · exact hos o ho

end Brings

end Engine

end ScatterGather
