import ScatterGather.Proofs.Grouping.Building
import ScatterGather.Proofs.Session.Cursors

/-!
# Tending — what happens to a world besides the effects of units

Calls are opened, answered and counted, and handles are closed.  Statements may be prepared by that
and cursors closed, but no cursor is opened and none is read.

* `World.Tended` : a world after any of that, with a flag that tells whether anything was closed;
* `World.close_tended`, `World.Grown.tended` : the ways in which it comes about;
* `World.Tended.ordered`, `World.Tended.openAt_nil` : what it cannot do.
-/

namespace ScatterGather

/-- The same cursor, or with closing also the one that was closed. -/
structure OpenCursor.Tended (closing : Bool) (c c' : OpenCursor) : Prop where
  handle : c'.handle = c.handle
  cursor : c'.cursor = c.cursor ∨ closing = true ∧ c'.cursor = c.cursor.close

/-- More may have been prepared, and with closing cursors may have been closed. -/
structure World.Tended (closing : Bool) (w w' : World) : Prop where
  prepared : w.prepared ≤ w'.prepared
  handles : w'.cursors.map OpenCursor.handle = w.cursors.map OpenCursor.handle
  single : ∀ id c, w.openAt id = [c] →
    ∃ c', OpenCursor.Tended closing c c' ∧ w'.openAt id = [c']

namespace OpenCursor.Tended

variable {closing : Bool} {c c₁ c₂ : OpenCursor}

theorem refl (c : OpenCursor) : Tended closing c c :=
  ⟨rfl, .inl rfl⟩

/-- Closing twice is no different from closing once. -/
theorem trans (h : Tended closing c c₁) (h' : Tended closing c₁ c₂) : Tended closing c c₂ := by
  refine ⟨h'.handle.trans h.handle, ?_⟩
  rcases h.cursor with hsame | ⟨hclosing, hclosed⟩
  · rw [← hsame]
    exact h'.cursor
  · right
    refine ⟨hclosing, ?_⟩
    rcases h'.cursor with hsame' | ⟨-, hclosed'⟩
    · rw [hsame', hclosed]
    · rw [hclosed', hclosed]
      rfl

theorem mono {sweeping : Bool} (h : Tended closing c c₁) (hle : closing = true → sweeping = true) :
    Tended sweeping c c₁ :=
  ⟨h.handle, h.cursor.imp_right fun hclosed => ⟨hle hclosed.1, hclosed.2⟩⟩

end OpenCursor.Tended

namespace World

variable {closing : Bool} {w w₁ w₂ : World}

namespace Tended

theorem refl (w : World) : w.Tended closing w :=
  ⟨Nat.le_refl _, rfl, fun _ c hc => ⟨c, .refl c, hc⟩⟩

theorem trans (h : w.Tended closing w₁) (h' : w₁.Tended closing w₂) : w.Tended closing w₂ := by
  refine ⟨Nat.le_trans h.prepared h'.prepared, h'.handles.trans h.handles, ?_⟩
  intro id c hc
  rcases h.single id c hc with ⟨c₁, htended, hc₁⟩
  rcases h'.single id c₁ hc₁ with ⟨c₂, htended', hc₂⟩
  exact ⟨c₂, htended.trans htended', hc₂⟩

theorem mono {sweeping : Bool} (h : w.Tended closing w₁) (hle : closing = true → sweeping = true) :
    w.Tended sweeping w₁ := by
  refine ⟨h.prepared, h.handles, ?_⟩
  intro id c hc
  rcases h.single id c hc with ⟨c', htended, hc'⟩
  exact ⟨c', htended.mono hle, hc'⟩

theorem ordered (h : w.Tended closing w₁) (hw : w.Ordered) : w₁.Ordered := by
  intro c hc
  have hmem : c.handle ∈ w.cursors.map OpenCursor.handle :=
    h.handles ▸ List.mem_map_of_mem hc
  rcases List.mem_map.mp hmem with ⟨c', hc', hsame⟩
  rw [← hsame]
  exact Nat.lt_of_lt_of_le (hw c' hc') h.prepared

theorem openAt_nil {id : Nat} (h : w.Tended closing w₁) (hnone : w.openAt id = []) :
    w₁.openAt id = [] := by
  apply List.filter_eq_nil_iff.mpr
  intro c hc
  have hmem : c.handle ∈ w.cursors.map OpenCursor.handle :=
    h.handles ▸ List.mem_map_of_mem hc
  rcases List.mem_map.mp hmem with ⟨c', hc', hsame⟩
  rw [← hsame]
  exact List.filter_eq_nil_iff.mp hnone c' hc'

end Tended

/-! ## Tending -/

theorem Grown.tended (h : w.Grown w₁) : w.Tended closing w₁ := by
  refine ⟨h.prepared, by rw [h.cursors], ?_⟩
  intro id c hc
  refine ⟨c, .refl c, ?_⟩
  rw [openAt, h.cursors]
  exact hc

theorem close_tended (w : World) (r : Resource Statement CursorHandle) :
    w.Tended true (w.close r) := by
  cases r with
  | statement s => exact ⟨Nat.le_refl _, rfl, fun _ c hc => ⟨c, .refl c, hc⟩⟩
  | cursor handle =>
      cases hcursor : w.cursor? handle with
      | none =>
          simp only [close, hcursor]
          exact .refl w
      | some cursor =>
          simp only [close, hcursor]
          refine ⟨Nat.le_refl _, ?_, ?_⟩
          · have hkeys : OpenCursor.handle ∘ (fun c => if c.handle = handle then
                { c with cursor := cursor.close } else c) = OpenCursor.handle := by
              funext c
              by_cases hc : c.handle = handle <;> simp [hc]
            rw [setCursor, List.map_map, hkeys]
          · intro id c hc
            by_cases hid : handle.statement.id = id
            · -- the cursor that is found is the only one with the number
              rcases Option.map_eq_some_iff.mp hcursor with ⟨found, hfind, rfl⟩
              have hhandle : found.handle = handle := by simpa using List.find?_some hfind
              have hfound : found ∈ w.openAt id := by
                refine List.mem_filter.mpr ⟨List.mem_of_find?_eq_some hfind, ?_⟩
                simp [hhandle, hid]
              rw [hc, List.mem_singleton] at hfound
              subst hfound
              refine ⟨{ found with cursor := found.cursor.close }, ⟨rfl, .inr ⟨rfl, rfl⟩⟩, ?_⟩
              rw [setCursor_openAt, hc, List.map_singleton, if_pos hhandle]
            · exact ⟨c, .refl c, (w.setCursor_openAt_of_ne cursor.close hid).trans hc⟩

end World

end ScatterGather
