import Mathlib.Data.List.Induction
import ScatterGather.Proofs.Engine.Lane

/-!
# Gathering — what a caller makes of its reports

A caller takes its reports one at a time.  What it knows in between depends on nothing but the
reports taken so far, and so does the answer that it returns.

* `Report.place`, `Report.keep` : the slots and the earliest failure after one more report;
* `Call.Tallied` : the record of a caller that has taken some reports;
* `Verdict` : the answers, each with the reports that lead to it;
* `Call.Tallied.gather` : one more report either is tallied or brings the verdict.
-/

namespace ScatterGather

variable {κ α : Type}

/-! ## Reports -/

namespace Report

def isFailure : Report α → Bool
  | done _ (.error _) => true
  | _ => false

/-- Fills the slot of a value. -/
def place (slots : List (Option α)) : Report α → List (Option α)
  | done position (.ok a) => slots.set position (some a)
  | _ => slots

/-- Keeps the failure at the lowest position. -/
def keep (first : Option (Nat × ExecutionError)) : Report α → Option (Nat × ExecutionError)
  | done position (.error e) => some (Call.lowest position e first)
  | _ => first

@[simp] theorem isFailure_skipped (position : Nat) :
    (skipped position : Report α).isFailure = false := rfl

@[simp] theorem isFailure_value (position : Nat) (a : α) :
    (done position (.ok a)).isFailure = false := rfl

@[simp] theorem isFailure_failure (position : Nat) (e : ExecutionError) :
    (done position (.error e) : Report α).isFailure = true := rfl

theorem isFailure_iff {r : Report α} :
    r.isFailure = true ↔ ∃ position e, r = .done position (.error e) := by
  cases r with
  | done position result => cases result <;> simp [isFailure]
  | skipped position => simp [isFailure]

@[simp] theorem length_place (slots : List (Option α)) (r : Report α) :
    (r.place slots).length = slots.length := by
  cases r with
  | done position result => cases result <;> simp [place]
  | skipped position => rfl

@[simp] theorem length_placeAll (got : List (Report α)) (slots : List (Option α)) :
    (got.foldl place slots).length = slots.length := by
  induction got generalizing slots with
  | nil => rfl
  | cons r got ih => simp [ih]

/-- A slot is empty as long as no value was reported for it, and else it has one of those. -/
theorem getElem?_placeAll (got : List (Report α)) {n position : Nat} (hlt : position < n) :
    ((got.foldl place (List.replicate n none))[position]? = some none ∧
      ∀ a, .done position (.ok a) ∉ got) ∨
    ∃ a, (got.foldl place (List.replicate n none))[position]? = some (some a) ∧
      .done position (.ok a) ∈ got := by
  induction got using List.reverseRecOn with
  | nil => simp [hlt]
  | append_singleton got r ih =>
      rw [List.foldl_append]
      -- a report that is no value at this position changes nothing here
      have hother (hplace : (r.place (got.foldl place (List.replicate n none)))[position]? =
          (got.foldl place (List.replicate n none))[position]?)
          (hr : ∀ a, r ≠ .done position (.ok a)) :
          ((r.place (got.foldl place (List.replicate n none)))[position]? = some none ∧
            ∀ a, .done position (.ok a) ∉ got ++ [r]) ∨
          ∃ a, (r.place (got.foldl place (List.replicate n none)))[position]? = some (some a) ∧
            .done position (.ok a) ∈ got ++ [r] := by
        rw [hplace]
        rcases ih with ⟨hnone, hnot⟩ | ⟨a, ha, hmem⟩
        · exact .inl ⟨hnone, fun a => by simp [hnot a, (hr a).symm]⟩
        · exact .inr ⟨a, ha, List.mem_append_left _ hmem⟩
      cases r with
      | skipped q => exact hother rfl (by simp)
      | done q result =>
          cases result with
          | error e => exact hother rfl (by simp)
          | ok a =>
              by_cases hq : q = position
              · subst hq
                exact .inr ⟨a, by simp [place, hlt], by simp⟩
              · exact hother (by simp [place, hq]) (by simp [hq])

theorem keepAll_eq_none {got : List (Report α)} :
    got.foldl keep none = none ↔ ∀ r ∈ got, r.isFailure = false := by
  induction got using List.reverseRecOn with
  | nil => simp
  | append_singleton got r ih =>
      cases r with
      | skipped q => simp [keep, ih, or_imp, forall_and]
      | done q result => cases result <;> simp [keep, ih, or_imp, forall_and]

theorem keepAll_eq_some {got : List (Report α)} {position : Nat} {e : ExecutionError}
    (h : got.foldl keep none = some (position, e)) :
    .done position (.error e) ∈ got ∧
      ∀ q e', .done q (.error e') ∈ got → position ≤ q := by
  induction got using List.reverseRecOn generalizing position e with
  | nil => simp at h
  | append_singleton got r ih =>
      -- the last report is one more to be compared with
      have hmore (hmem : .done position (.error e) ∈ got ++ [r])
          (hold : ∀ q e', .done q (.error e') ∈ got → position ≤ q)
          (hlast : ∀ q e', r = .done q (.error e') → position ≤ q) :
          .done position (.error e) ∈ got ++ [r] ∧
            ∀ q e', .done q (.error e') ∈ got ++ [r] → position ≤ q := by
        refine ⟨hmem, ?_⟩
        intro q e' hm
        rcases List.mem_append.mp hm with hm | hm
        · exact hold q e' hm
        · exact hlast q e' (List.mem_singleton.mp hm).symm
      rw [List.foldl_append] at h
      cases r with
      | skipped q =>
          rcases ih h with ⟨hmem, hleast⟩
          exact hmore (List.mem_append_left _ hmem) hleast (by simp)
      | done q result =>
          cases result with
          | ok a =>
              rcases ih h with ⟨hmem, hleast⟩
              exact hmore (List.mem_append_left _ hmem) hleast (by simp)
          | error e' =>
              simp only [List.foldl_cons, List.foldl_nil, keep, Option.some.injEq] at h
              cases hfirst : got.foldl keep none with
              | none =>
                  -- the first failure of all
                  rw [hfirst] at h
                  cases h
                  have hcalm := keepAll_eq_none.mp hfirst
                  exact hmore (by simp) (fun q' e'' hm => by simpa using hcalm _ hm) (by simp)
              | some first =>
                  rcases first with ⟨p, f⟩
                  rcases ih hfirst with ⟨hmem, hleast⟩
                  rw [hfirst] at h
                  by_cases hlt : q < p
                  · -- lower than all before
                    simp only [Call.lowest, hlt, if_true] at h
                    cases h
                    exact hmore (by simp) (fun q' e'' hm => hlt.le.trans (hleast q' e'' hm))
                      (by simp)
                  · -- an earlier one stays
                    simp only [Call.lowest, hlt, if_false] at h
                    cases h
                    refine hmore (List.mem_append_left _ hmem) hleast ?_
                    intro q' e'' hlast
                    cases hlast
                    exact not_lt.mp hlt

end Report

/-! ## The record of a caller -/

namespace Call

/-- What a caller knows after it has taken the reports `got`. -/
structure Tallied (c : Call κ α) (got : List (Report α)) : Prop where
  received : c.received = got.length
  le_total : got.length ≤ c.total
  slots : c.slots = got.foldl Report.place (List.replicate c.total none)
  first : c.first = got.foldl Report.keep none
  failed : c.failed = got.countP Report.isFailure
  calm : c.policy = .failFast → ∀ r ∈ got, r.isFailure = false
  inRange : ∀ position a, .done position (.ok a) ∈ got → position < c.total

end Call

/-- The answers of a call with `total` units, each with the reports that lead to it.  That reports
are missing is no verdict on those that came. -/
inductive Verdict (policy : Policy) (total : Nat) : List (Report α) → Answer α → Prop
  | complete {got : List (Report α)} (all : got.length = total)
      (calm : ∀ r ∈ got, r.isFailure = false)
      (inRange : ∀ position a, .done position (.ok a) ∈ got → position < total) :
      Verdict policy total got
        (.ok (got.foldl Report.place (List.replicate total none)))
  | aggregate {got : List (Report α)} {position : Nat} {e : ExecutionError}
      (patient : policy = .bestEffort) (all : got.length = total)
      (first : got.foldl Report.keep none = some (position, e))
      (inRange : ∀ position a, .done position (.ok a) ∈ got → position < total) :
      Verdict policy total got
        (.error (.execution (.aggregate e (got.countP Report.isFailure))))
  | failure {got : List (Report α)} {position : Nat} {e : ExecutionError}
      (fast : policy = .failFast) (calm : ∀ r ∈ got, r.isFailure = false) :
      Verdict policy total (got ++ [.done position (.error e)]) (.error (.execution e))
  | outOfRange {got : List (Report α)} {position : Nat} {a : α} (out : total ≤ position) :
      Verdict policy total (got ++ [.done position (.ok a)])
        (.error (.bug (.positionOutOfRange position total)))

namespace Call

variable {c : Call κ α} {got : List (Report α)}

/-- Behind a tallied report the caller goes on waiting or has its verdict. -/
theorem Tallied.settle (h : c.Tallied got) :
    (got.length < c.total ∧ c.settle = c) ∨
      ∃ answer, Verdict c.policy c.total got answer ∧ c.settle = c.finish answer := by
  -- reports are missing, or the last one has come in
  by_cases hlt : c.received < c.total
  · exact .inl ⟨h.received ▸ hlt, by simp [Call.settle, hlt]⟩
  · have hall : got.length = c.total :=
      le_antisymm h.le_total (h.received ▸ not_lt.mp hlt)
    right
    cases hfirst : c.first with
    | none =>
        have hcalm : ∀ r ∈ got, r.isFailure = false :=
          Report.keepAll_eq_none.mp (h.first ▸ hfirst)
        refine ⟨.ok c.slots, ?_, by simp [Call.settle, hlt, hfirst]⟩
        rw [h.slots]
        exact .complete hall hcalm h.inRange
    | some first =>
        rcases first with ⟨position, e⟩
        have hkeep : got.foldl Report.keep none = some (position, e) := h.first ▸ hfirst
        -- fail-fast would have ended the call at this failure
        have hpatient : c.policy = .bestEffort := by
          cases hpolicy : c.policy with
          | bestEffort => rfl
          | failFast =>
              have hcalm := h.calm hpolicy _ (Report.keepAll_eq_some hkeep).1
              simp at hcalm
        refine ⟨.error (.execution (.aggregate e c.failed)), ?_, by simp [Call.settle, hlt, hfirst]⟩
        rw [h.failed]
        exact .aggregate hpatient hall hkeep h.inRange

/-- Taking a report either adds it to what is tallied or brings the verdict. -/
theorem Tallied.gather {r : Report α} (h : c.Tallied got) (hlt : got.length < c.total) :
    ((c.gather r).Tallied (got ++ [r]) ∧ got.length + 1 < c.total ∧
      (c.gather r).phase = c.phase ∧ (c.gather r).inbox = c.inbox) ∨
    ∃ answer, Verdict c.policy c.total (got ++ [r]) answer ∧
      (c.gather r).phase = .returned answer ∧ (c.gather r).inbox = [] := by
  -- in all cases but two the report is tallied, and the caller looks whether it was the last
  have hsettle (c₁ : Call κ α) (hc : c₁.Tallied (got ++ [r])) :
      (c₁.settle.Tallied (got ++ [r]) ∧ got.length + 1 < c₁.total ∧
        c₁.settle.phase = c₁.phase ∧ c₁.settle.inbox = c₁.inbox) ∨
      ∃ answer, Verdict c₁.policy c₁.total (got ++ [r]) answer ∧
        c₁.settle.phase = .returned answer ∧ c₁.settle.inbox = [] := by
    rcases hc.settle with ⟨hmore, hsame⟩ | ⟨answer, hverdict, hfinish⟩
    · rw [hsame]
      exact .inl ⟨hc, by simpa using hmore, rfl, rfl⟩
    · exact .inr ⟨answer, hverdict, hfinish ▸ rfl, hfinish ▸ rfl⟩
  have hreceived : c.received + 1 = (got ++ [r]).length := by simp [h.received]
  have hle : (got ++ [r]).length ≤ c.total := by simpa using Nat.succ_le_of_lt hlt
  cases r with
  | skipped position =>
      refine hsettle { c with received := c.received + 1 }
        ⟨hreceived, hle, ?_, ?_, ?_, ?_, ?_⟩
      · simp [h.slots, Report.place]
      · simp [h.first, Report.keep]
      · simp [h.failed]
      · intro hp r hr
        rcases List.mem_append.mp hr with hr | hr
        · exact h.calm hp r hr
        · simp [List.mem_singleton.mp hr]
      · intro q a hm
        exact h.inRange q a (by simpa using hm)
  | done position result =>
      cases result with
      | ok a =>
          by_cases hin : position < c.slots.length
          · have htotal : position < c.total := by simpa [h.slots] using hin
            rw [gather_value hin]
            refine hsettle { c with
                received := c.received + 1
                slots := c.slots.set position (some a) }
              ⟨hreceived, hle, ?_, ?_, ?_, ?_, ?_⟩
            · simp [h.slots, Report.place]
            · simp [h.first, Report.keep]
            · simp [h.failed]
            · intro hp r hr
              rcases List.mem_append.mp hr with hr | hr
              · exact h.calm hp r hr
              · simp [List.mem_singleton.mp hr]
            · intro q b hm
              rcases List.mem_append.mp hm with hm | hm
              · exact h.inRange q b hm
              · cases List.mem_singleton.mp hm
                exact htotal
          · have hout : c.total ≤ position := by simpa [h.slots] using hin
            -- a value out of range ends the call at once
            rw [gather_outOfRange hin]
            exact .inr ⟨_, .outOfRange hout, rfl, rfl⟩
      | error e =>
          cases hpolicy : c.policy with
          | failFast =>
              -- so does a failure under fail-fast
              rw [gather_failFast hpolicy]
              exact .inr ⟨_, .failure rfl (h.calm hpolicy), rfl, rfl⟩
          | bestEffort =>
              rw [gather_bestEffort hpolicy, ← hpolicy]
              refine hsettle { c with
                  received := c.received + 1
                  failed := c.failed + 1
                  first := some (lowest position e c.first) }
                ⟨hreceived, hle, ?_, ?_, ?_, ?_, ?_⟩
              · simp [h.slots, Report.place]
              · simp [h.first, Report.keep]
              · simp [h.failed]
              · intro hp
                rw [hpolicy] at hp
                cases hp
              · intro q a hm
                exact h.inRange q a (by simpa using hm)

end Call

end ScatterGather
