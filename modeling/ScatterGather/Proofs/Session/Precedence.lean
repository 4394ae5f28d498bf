import ScatterGather.Proofs.Registry.Precedence
import ScatterGather.Proofs.Session.Sweeping

/-!
# Precedence — statements are closed behind cursors, except behind those that come late

A unit opens its cursor, registers its statement, and registers its cursor, and a sweep takes the
cursors before the statements.  So a sweep that is begun while a unit is under way can close the
statement of the unit and leave its cursor open.  A cursor that is registered before the sweep takes
the cursors is attempted first.

* `Session.cursors_attempted_first` : the cursors that come before the statements of a sweep;
* `Session.statement_closed_before_cursor` : a cursor that comes late.
-/

namespace ScatterGather

namespace Session

variable {β : Type} {s s₁ : Session β} {j j₁ : Journal} {x k : Nat}

/-- Before sweep `k` of a registry attempts a statement, every cursor that was registered there
while the sweep had still to take the cursors was attempted, unless another sweep has it. -/
theorem cursors_attempted_first {threads : Nat} {backend : Backend} {executors : List Executor}
    {recorders : Nat} (hx : x < executors.length)
    (hrun : Run journaled? (start threads backend executors recorders, .empty) (s₁, j₁))
    (hfresh : (s₁.sweepsOf x)[k]? = some .fresh) (hlater : Run journaled? (s₁, j₁) (s, j))
    {st : Statement} {left : List (Resource Statement CursorHandle)}
    {failure : Option ExecutionError}
    (hnext : (s.sweepsOf x)[k]? = some (.closing (.statement st :: left) failure)) :
    ∃ c, Run Cleanup.step? .empty c ∧ s.Cleans x j c ∧ ∀ handle,
      .cursor handle ∈ (History.effects j₁.past).filterMap (Effect.registers? x) →
      .cursor handle ∈ c.attempted ∨ ∃ k' sweep, k' ≠ k ∧ (s.sweepsOf x)[k']? = some sweep ∧
        .cursor handle ∈ sweep.taken := by
  rcases exists_cleanup hx hrun with ⟨c₁, hcleanup, h₁, -⟩
  rcases h₁.run hlater with ⟨c, hrest, h⟩
  refine ⟨c, hcleanup.trans hrest, h, fun handle hhandle => ?_⟩
  rw [← h₁.sweeps] at hfresh
  rw [← h.sweeps] at hnext ⊢
  rw [← h₁.registered] at hhandle
  exact Cleanup.attempted_of_closing hcleanup hfresh hrest hnext hhandle

/-! ## Examples -/

/-- A query, up to the registration of the statement of its only unit. -/
def halfTracked : List (Step Unit) :=
  calling .query 0 0 2 6 0

/-- The cursor is registered before a sweep is begun. -/
def sweptBehind : List (Step Unit) :=
  halfTracked ++ [.engine (.worker 0), .beginSweep 0]

/-- The cursor is registered when a sweep has taken the cursors and before it takes the statements,
of which it closes the only one. -/
def sweptBetween : List (Step Unit) :=
  halfTracked ++ [.beginSweep 0, .sweep 0, .engine (.worker 0), .sweep 0, .sweep 0]

theorem cursors_attempted_first_behind : ∃ (s : Session Unit) (j : Journal)
    (c : Cleanup Statement CursorHandle) (handle : CursorHandle),
    Run journaled? (start 1 .willing [.single] 0, .empty) (s, j) ∧ s.Cleans 0 j c ∧
      s.sweepsOf 0 = [.closing [.statement handle.statement] none] ∧
      .cursor handle ∈ c.attempted := by
  obtain ⟨s₁, j₁, s, j, handle, hmoves₁, hmoves, hfresh, hsweeps, hregistered⟩ :
      ∃ (s₁ : Session Unit) (j₁ : Journal) (s : Session Unit) (j : Journal)
        (handle : CursorHandle),
        sweptBehind.foldlM journaled? (start 1 .willing [.single] 0, .empty) = some (s₁, j₁) ∧
        (List.replicate 3 (.sweep 0)).foldlM journaled? (s₁, j₁) = some (s, j) ∧
        s₁.sweepsOf 0 = [.fresh] ∧
        s.sweepsOf 0 = [.closing [.statement handle.statement] none] ∧
        (History.effects j₁.past).filterMap (Effect.registers? 0) =
          [.statement handle.statement, .cursor handle] :=
    ⟨_, _, _, _, ⟨_⟩, rfl, rfl, rfl, rfl, rfl⟩
  have hrun := Run.of_moves hmoves₁
  have hlater := Run.of_moves hmoves
  have hnext : (s.sweepsOf 0)[0]? = some (.closing (.statement handle.statement :: []) none) := by
    rw [hsweeps]
    rfl
  rcases cursors_attempted_first (by decide) hrun (by rw [hfresh]; rfl) hlater hnext with
    ⟨c, -, hcleans, hfirst⟩
  refine ⟨s, j, c, handle, hrun.trans hlater, hcleans, hsweeps, ?_⟩
  rcases hfirst handle (by simp [hregistered]) with hattempted | ⟨k', sweep, hk', hsweep, -⟩
  · exact hattempted
  · -- there is no other sweep
    rw [hsweeps, List.getElem?_singleton, if_neg hk'] at hsweep
    cases hsweep

/-- The statement is closed while its cursor is open and tracked. -/
theorem statement_closed_before_cursor : ∃ (s : Session Unit) (j : Journal) (c : OpenCursor),
    Run journaled? (start 1 .willing [.single] 0, .empty) (s, j) ∧ s.world.cursors = [c] ∧
      .closeStatement c.handle.statement ∈ s.world.log ∧ c.cursor.closed = false ∧
      (s.registry 0).cursors.map Tracked.handle = [c.handle] := by
  obtain ⟨s, j, c, hmoves, hcursors, hlog, hopen, htracked⟩ :
      ∃ (s : Session Unit) (j : Journal) (c : OpenCursor),
        sweptBetween.foldlM journaled? (start 1 .willing [.single] 0, .empty) = some (s, j) ∧
        s.world.cursors = [c] ∧ s.world.log.getLast? = some (.closeStatement c.handle.statement) ∧
        c.cursor.closed = false ∧ (s.registry 0).cursors.map Tracked.handle = [c.handle] :=
    ⟨_, _, ⟨_, _⟩, rfl, rfl, rfl, rfl, rfl⟩
  exact ⟨s, j, c, Run.of_moves hmoves, hcursors, List.mem_of_getLast? hlog, hopen, htracked⟩

end Session

end ScatterGather
