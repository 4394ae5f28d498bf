import ScatterGather.Session

/-!
# Merging — the results of a query out of its slots

* `Answer.failures?` : the failures in an answer that speaks of all units;
* `gatherResults_rows` : slots that all hold rows are merged in their order;
* `Response.ofAnswer_rows` : so a query with nothing but rows in its slots misses no result.
-/

namespace ScatterGather

/-- How many units have failed by an answer that speaks of all units. -/
def Answer.failures? {α : Type} : Answer α → Option Nat
  | .ok _ => some 0
  | .error (.execution (.aggregate _ n)) => some n
  | _ => none

theorem Answer.failures?_eq_some {α : Type} {answer : Answer α} {n : Nat}
    (h : answer.failures? = some n) :
    (∃ slots, answer = .ok slots) ∧ n = 0 ∨ ∃ e, answer = .error (.execution (.aggregate e n)) := by
  unfold failures? at h
  split at h
  case h_1 slots => exact .inl ⟨⟨slots, rfl⟩, (Option.some.inj h).symm⟩
  case h_2 e m => exact .inr ⟨e, Option.some.inj h ▸ rfl⟩
  case h_3 => cases h

theorem gatherResults_rows (rs : List QueryResult) (position : Nat) :
    gatherResults (rs.map fun r => some (.rows r)) position = .ok rs := by
  induction rs generalizing position with
  | nil => rfl
  | cons r rs ih => simp [gatherResults, Output.rows?, ih, Except.map]

theorem exists_results {slots : List (Option Output)}
    (h : ∀ slot ∈ slots, ∃ r, slot = some (.rows r)) :
    ∃ rs : List QueryResult, slots = rs.map fun r => some (.rows r) := by
  induction slots with
  | nil => exact ⟨[], rfl⟩
  | cons slot slots ih =>
      rcases h slot (by simp) with ⟨r, rfl⟩
      rcases ih fun slot hslot => h slot (by simp [hslot]) with ⟨rs, rfl⟩
      exact ⟨r :: rs, rfl⟩

/-- A query whose slots hold nothing but rows has a result for each. -/
theorem Response.ofAnswer_rows {slots : List (Option Output)} (queryId : Nat)
    (h : ∀ slot ∈ slots, ∃ r, slot = some (.rows r)) :
    ∃ rs : List QueryResult, (slots = rs.map fun r => some (.rows r)) ∧
      Response.ofAnswer .query queryId (.ok slots) = .results rs := by
  rcases exists_results h with ⟨rs, rfl⟩
  exact ⟨rs, rfl, by simp [Response.ofAnswer, gatherResults_rows]⟩

end ScatterGather
