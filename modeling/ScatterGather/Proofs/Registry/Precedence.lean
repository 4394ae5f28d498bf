import ScatterGather.Proofs.Registry.Cleanup

/-!
# Precedence — the cursors that are attempted before a statement

A sweep attempts the cursors that it has taken before the statements, but it takes the cursors
first.  A cursor that is registered between the two steps is left for the next sweep, while the
statement that it was opened from may be taken.  What was registered before the sweep took the
cursors does come first.

* `Sweep.CursorsFirst` : in the hands of a sweep no cursor stands behind a statement;
* `Cleanup.Reached` : a handle that is in the hands of a sweep or was attempted;
* `Cleanup.Passed` : sweep `i` has still to take the cursors, or some of them are reached;
* `Cleanup.attempted_of_closing` : the cursors that come before a statement.
-/

namespace ScatterGather

variable {η θ : Type} {fails : Resource η θ → Option String}

namespace Sweep

variable {r r' : Registry η θ} {sweep sweep' : Sweep η θ} {attempt : Option (Resource η θ)}

/-- In the hands of the sweep no cursor stands behind a statement. -/
def CursorsFirst (sweep : Sweep η θ) : Prop :=
  ∀ left failure, sweep = closing left failure → ∃ (cursors : List θ) (statements : List η),
    left = cursors.map .cursor ++ statements.map .statement

theorem CursorsFirst.step (h : sweep.CursorsFirst)
    (hstep : sweep.step? fails r = some (sweep', r', attempt)) : sweep'.CursorsFirst := by
  rintro left failure rfl
  cases sweep with
  | fresh => cases hstep
  | tookCursors cursors =>
      cases hstep
      refine ⟨cursors.map Tracked.handle, r.statements.map Tracked.handle, ?_⟩
      simp [Registry.resources, Function.comp_def]
  | closing before failed =>
      rcases h before failed rfl with ⟨cursors, statements, rfl⟩
      -- the first handle is attempted, and the others stay as they are
      cases cursors with
      | cons cursor cursors =>
          cases hstep
          exact ⟨cursors, statements, rfl⟩
      | nil =>
          cases statements with
          | nil => cases hstep
          | cons statement statements =>
              cases hstep
              exact ⟨[], statements, rfl⟩

/-- A sweep that comes to a statement has no cursor left. -/
theorem CursorsFirst.cursor_not_mem {h : η} {left : List (Resource η θ)}
    {failure : Option ExecutionError}
    (hfirst : (closing (.statement h :: left) failure).CursorsFirst)
    (cursor : θ) : .cursor cursor ∉ (closing (.statement h :: left) failure).taken := by
  rcases hfirst _ _ rfl with ⟨cursors, statements, hleft⟩
  cases cursors with
  | cons cursor cursors => cases hleft
  | nil => simp [taken, hleft]

/-- What a sweep has taken stays with it until it is attempted. -/
theorem mem_taken_step {x : Resource η θ} (hx : x ∈ sweep.taken)
    (hstep : sweep.step? fails r = some (sweep', r', attempt)) :
    x ∈ sweep'.taken ∨ x ∈ attempt.toList := by
  cases sweep with
  | fresh => cases hx
  | tookCursors cursors =>
      cases hstep
      exact .inl (List.mem_append_left _ hx)
  | closing left failure =>
      cases left with
      | nil => cases hx
      | cons y left =>
          cases hstep
          rcases List.mem_cons.mp hx with rfl | hx
          · exact .inr (List.mem_singleton_self _)
          · exact .inl hx

end Sweep

namespace Cleanup

variable {c c' c₁ : Cleanup η θ} {i : Nat} {m : Move η θ} {x : Resource η θ}
  {xs : List (Resource η θ)}

theorem cursorsFirst_of_run (h : Run step? empty c) : ∀ sweep ∈ c.sweeps, sweep.CursorsFirst := by
  refine Run.preserves (P := fun c : Cleanup η θ => ∀ sweep ∈ c.sweeps, sweep.CursorsFirst) ?_ h ?_
  · rintro c c' m hall hstep
    cases m with
    | trackStatement | trackCursor =>
        cases hstep
        exact hall
    | beginSweep =>
        cases hstep
        intro sweep hs
        rcases List.mem_append.mp hs with hs | hs
        · exact hall sweep hs
        · rcases List.mem_singleton.mp hs with rfl
          rintro left failure ⟨⟩
    | sweep i fails =>
        rcases sweepStep?_eq_some.mp hstep with ⟨sweep, sweep', r, attempt, hsweep, hmove, rfl⟩
        intro other hs
        rcases List.mem_or_eq_of_mem_set hs with hs | rfl
        · exact hall other hs
        · exact (hall sweep (List.mem_of_getElem? hsweep)).step hmove
  · intro sweep hs
    cases hs

/-- A sweep has come to the handle or is going to. -/
def Reached (c : Cleanup η θ) (x : Resource η θ) : Prop :=
  x ∈ c.attempted ∨ ∃ sweep ∈ c.sweeps, x ∈ sweep.taken

theorem Reached.step (h : c.Reached x) (hstep : c.step? m = some c') : c'.Reached x := by
  cases m with
  | trackStatement | trackCursor =>
      cases hstep
      exact h
  | beginSweep =>
      cases hstep
      exact h.imp_right fun ⟨sweep, hs, hx⟩ => ⟨sweep, List.mem_append_left _ hs, hx⟩
  | sweep i fails =>
      rcases sweepStep?_eq_some.mp hstep with ⟨sweep, sweep', r, attempt, hsweep, hmove, rfl⟩
      have hlt := (List.getElem?_eq_some_iff.mp hsweep).1
      rcases h with hx | ⟨other, hs, hx⟩
      · exact .inl (List.mem_append_left _ hx)
      · rcases List.getElem?_of_mem hs with ⟨k, hk⟩
        by_cases hki : i = k
        · -- the sweep that has the handle makes the step
          subst hki
          cases hsweep.symm.trans hk
          rcases Sweep.mem_taken_step hx hmove with hx | hx
          · exact .inr ⟨sweep', List.mem_of_getElem? (List.getElem?_set_self hlt), hx⟩
          · exact .inl (List.mem_append_right _ hx)
        · exact .inr ⟨other, List.mem_of_getElem? ((List.getElem?_set_ne hki).trans hk), hx⟩

/-- Where no cursor is tracked all of them are reached. -/
theorem Balanced.reached (h : c.Balanced) (hnone : c.registry.cursors = []) {cursor : θ}
    (hcursor : .cursor cursor ∈ c.registered) : c.Reached (.cursor cursor) := by
  have hmem := h.subset hcursor
  rcases List.mem_append.mp hmem with hmem | hmem
  · rcases List.mem_append.mp hmem with hmem | hmem
    · simp [Registry.resources, hnone] at hmem
    · exact .inr (List.mem_flatMap.mp hmem)
  · exact .inl hmem

/-- Sweep `i` has still to take the cursors, or it has taken them and the cursors among `xs` are
reached. -/
def Passed (i : Nat) (xs : List (Resource η θ)) (c : Cleanup η θ) : Prop :=
  xs ⊆ c.registered ∧ ∃ sweep, c.sweeps[i]? = some sweep ∧
    (sweep = .fresh ∨ ∀ cursor, .cursor cursor ∈ xs → c.Reached (.cursor cursor))

theorem Passed.step (hbalanced : c'.Balanced) (h : c.Passed i xs) (hstep : c.step? m = some c') :
    c'.Passed i xs := by
  rcases h with ⟨hxs, sweep, hsweep, hpassed⟩
  have hlt := (List.getElem?_eq_some_iff.mp hsweep).1
  have hxs' : xs ⊆ c'.registered :=
    List.Subset.trans hxs (registered_grows hstep).subset
  have hreached (hr : ∀ cursor, .cursor cursor ∈ xs → c.Reached (.cursor cursor)) :
      ∀ cursor, .cursor cursor ∈ xs → c'.Reached (.cursor cursor) :=
    fun cursor hcursor => (hr cursor hcursor).step hstep
  refine ⟨hxs', ?_⟩
  cases m with
  | trackStatement | trackCursor =>
      cases hstep
      exact ⟨sweep, hsweep, hpassed.imp_right hreached⟩
  | beginSweep =>
      cases hstep
      exact ⟨sweep, (List.getElem?_append_left hlt).trans hsweep, hpassed.imp_right hreached⟩
  | sweep k fails =>
      rcases sweepStep?_eq_some.mp hstep with ⟨mine, mine', r, attempt, hmine, hmove, rfl⟩
      by_cases hki : k = i
      · subst hki
        cases hmine.symm.trans hsweep
        refine ⟨mine', List.getElem?_set_self hlt, .inr ?_⟩
        rcases hpassed with rfl | hpassed
        · -- it takes all cursors that are tracked
          cases hmove
          exact fun cursor hcursor => hbalanced.reached rfl (hxs' hcursor)
        · exact hreached hpassed
      · exact ⟨sweep, (List.getElem?_set_ne hki).trans hsweep, hpassed.imp_right hreached⟩

/-- A cursor that was registered when sweep `i` had still to take the cursors is attempted before
the sweep attempts a statement, unless another sweep has it. -/
theorem attempted_of_closing (hrun : Run step? empty c₁) (hfresh : c₁.sweeps[i]? = some .fresh)
    (hlater : Run step? c₁ c) {h : η} {left : List (Resource η θ)}
    {failure : Option ExecutionError}
    (hnext : c.sweeps[i]? = some (.closing (.statement h :: left) failure)) {cursor : θ}
    (hcursor : .cursor cursor ∈ c₁.registered) : .cursor cursor ∈ c.attempted ∨
      ∃ k sweep, k ≠ i ∧ c.sweeps[k]? = some sweep ∧ .cursor cursor ∈ sweep.taken := by
  have hpassed : c.Balanced ∧ c.Passed i c₁.registered := by
    refine Run.preserves (P := fun c => c.Balanced ∧ c.Passed i c₁.registered) ?_ hlater
      ⟨balanced_of_run hrun, List.Subset.refl _, .fresh, hfresh, .inl rfl⟩
    rintro c c' m ⟨hbalanced, hpassed⟩ hstep
    have hbalanced' := hbalanced.step hstep
    exact ⟨hbalanced', hpassed.step hbalanced' hstep⟩
  rcases hpassed.2 with ⟨-, sweep, hsweep, hreached⟩
  cases hnext.symm.trans hsweep
  rcases hreached with hfresh | hreached
  · cases hfresh
  rcases hreached cursor hcursor with hattempted | ⟨sweep, hs, htaken⟩
  · exact .inl hattempted
  · rcases List.getElem?_of_mem hs with ⟨k, hk⟩
    refine .inr ⟨k, sweep, ?_, hk, htaken⟩
    rintro rfl
    cases hnext.symm.trans hk
    have hfirst := cursorsFirst_of_run (hrun.trans hlater) _ (List.mem_of_getElem? hnext)
    exact hfirst.cursor_not_mem cursor htaken

end Cleanup

end ScatterGather
