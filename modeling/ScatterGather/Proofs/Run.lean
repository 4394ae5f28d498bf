import Mathlib.Logic.Relation

/-!
# Run — the runs of a machine that moves step by step

A machine is given by the moves that are possible in each of its states.  Nothing is said about
who moves next, so a statement about all runs is a statement about every interleaving.

* `Run step? s t` : some moves, one after the other, lead from `s` to `t`;
* `Run.preserves` : what every move keeps holds at the end of every run;
* `Run.length_le` : a cost that every move lowers bounds the number of moves;
* `Stuck` : no move is possible;
* `Inevitable step? goal s` : from `s` on every way to move comes to a goal, and none gets stuck
  before it;
* `Inevitable.of_progress` : a cost that every move lowers, and a move wherever the goal is not
  reached, make the goal inevitable.
-/

namespace ScatterGather

variable {σ μ : Type}

/-- Some move leads from one state to the next. -/
def Moves (step? : σ → μ → Option σ) (s t : σ) : Prop :=
  ∃ m, step? s m = some t

abbrev Run (step? : σ → μ → Option σ) : σ → σ → Prop :=
  Relation.ReflTransGen (Moves step?)

namespace Run

variable {step? : σ → μ → Option σ} {s t u : σ}

theorem single {m : μ} (h : step? s m = some t) : Run step? s t :=
  Relation.ReflTransGen.single ⟨m, h⟩

theorem snoc {m : μ} (h : Run step? s t) (hm : step? t m = some u) : Run step? s u :=
  h.tail ⟨m, hm⟩

/-- Moves that can be made one after the other are a run. -/
theorem of_moves {ms : List μ} (h : ms.foldlM step? s = some t) : Run step? s t := by
  induction ms generalizing s with
  | nil =>
      cases h
      exact .refl
  | cons m ms ih =>
      rcases Option.bind_eq_some_iff.mp h with ⟨u, hm, hrest⟩
      exact .head ⟨m, hm⟩ (ih hrest)

theorem preserves {P : σ → Prop} (hstep : ∀ {s t : σ} {m : μ}, P s → step? s m = some t → P t)
    (h : Run step? s t) (hs : P s) : P t := by
  induction h with
  | refl => exact hs
  | tail _ hmove ih =>
      rcases hmove with ⟨m, hm⟩
      exact hstep ih hm

/-- Each move is paid for out of the cost of the start. -/
theorem length_le {P : σ → Prop} (cost : σ → Nat)
    (keeps : ∀ {s t : σ} {m : μ}, P s → step? s m = some t → P t)
    (lowers : ∀ {s t : σ} {m : μ}, P s → step? s m = some t → cost t < cost s)
    {ms : List μ} (hs : P s) (h : ms.foldlM step? s = some t) : ms.length + cost t ≤ cost s := by
  induction ms generalizing s with
  | nil =>
      cases h
      exact Nat.le_of_eq (Nat.zero_add _)
  | cons m ms ih =>
      rcases Option.bind_eq_some_iff.mp h with ⟨u, hm, hrest⟩
      have hlt := lowers hs hm
      have hle := ih (keeps hs hm) hrest
      rw [List.length_cons]
      omega

end Run

def Stuck (step? : σ → μ → Option σ) (s : σ) : Prop :=
  ∀ m, step? s m = none

/-- No run from the state stays clear of the goal: each can go on until it is there, and none
goes on for ever. -/
inductive Inevitable (step? : σ → μ → Option σ) (goal : σ → Prop) : σ → Prop
  | now {s : σ} : goal s → Inevitable step? goal s
  | later {s : σ} :
      (∃ m t, step? s m = some t) →
      (∀ m t, step? s m = some t → Inevitable step? goal t) → Inevitable step? goal s

namespace Inevitable

variable {step? : σ → μ → Option σ} {goal : σ → Prop} {s : σ}

/-- The cost bounds the moves that are left, so the proof is by induction on it. -/
theorem of_progress {P : σ → Prop} (cost : σ → Nat)
    (keeps : ∀ {s t : σ} {m : μ}, P s → step? s m = some t → P t)
    (lowers : ∀ {s t : σ} {m : μ}, P s → step? s m = some t → cost t < cost s)
    (progress : ∀ {s : σ}, P s → ¬ goal s → ∃ m t, step? s m = some t)
    (hs : P s) : Inevitable step? goal s := by
  induction hn : cost s using Nat.strongRecOn generalizing s with
  | ind n ih =>
      by_cases hgoal : goal s
      · exact .now hgoal
      · refine .later (progress hs hgoal) ?_
        intro m t hm
        have hlt : cost t < n := hn ▸ lowers hs hm
        exact ih (cost t) hlt (keeps hs hm) rfl

/-- Where a goal is inevitable some run reaches it. -/
theorem exists_run (h : Inevitable step? goal s) : ∃ t, Run step? s t ∧ goal t := by
  induction h with
  | now hgoal => exact ⟨_, .refl, hgoal⟩
  | later hmove _ ih =>
      rcases hmove with ⟨m, t, hm⟩
      rcases ih m t hm with ⟨u, hrun, hgoal⟩
      exact ⟨u, .head ⟨m, hm⟩ hrun, hgoal⟩

end Inevitable

end ScatterGather
