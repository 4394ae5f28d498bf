import ScatterGather.Proofs.Engine.History
import ScatterGather.Session

/-!
# Cursors — which effects a cursor can see

A cursor is known by the number of its statement.  Effects that open or read other cursors leave it
alone, so its state is that of the few effects that touch it.

* `Effect.touches` : whether an effect opens or reads the cursor with a number;
* `World.openAt` : the cursors with a number, of which there is at most one;
* `World.perform_openAt` : the frame of an effect;
* `Session.openAt_of_untouched` : a cursor that is opened and then left alone;
* `Session.cursorOf_of_openAt` : a result finds its cursor.
-/

namespace ScatterGather

namespace Effect

/-- The cursor that an effect opens or reads. -/
def handle? : Effect → Option CursorHandle
  | openCursor handle _ => some handle
  | readCursor handle => some handle
  | _ => none

def touches (id : Nat) (x : Effect) : Bool :=
  x.handle?.any fun handle => handle.statement.id == id

def reads (handle : CursorHandle) : Effect → Bool
  | readCursor h => h == handle
  | _ => false

/-- All cursors that the effect touches have smaller numbers. -/
def Below (n : Nat) (x : Effect) : Prop :=
  ∀ handle, x.handle? = some handle → handle.statement.id < n

theorem Below.mono {n m : Nat} {x : Effect} (h : x.Below n) (hle : n ≤ m) : x.Below m :=
  fun handle hx => Nat.lt_of_lt_of_le (h handle hx) hle

theorem Below.not_touches {n id : Nat} {x : Effect} (h : x.Below n) (hle : n ≤ id) :
    x.touches id = false := by
  cases hx : x.handle? with
  | none => simp [touches, hx]
  | some handle =>
      have hlt := h handle hx
      have hne : handle.statement.id ≠ id := by omega
      simp [touches, hx, hne]

end Effect

namespace World

def openAt (w : World) (id : Nat) : List OpenCursor :=
  w.cursors.filter fun c => c.handle.statement.id == id

/-- Every cursor belongs to a statement that was prepared. -/
def Ordered (w : World) : Prop :=
  ∀ c ∈ w.cursors, c.handle.statement.id < w.prepared

theorem Ordered.openAt {w : World} (h : w.Ordered) {id : Nat} (hle : w.prepared ≤ id) :
    w.openAt id = [] := by
  apply List.filter_eq_nil_iff.mpr
  intro c hc
  have hlt := h c hc
  have hne : c.handle.statement.id ≠ id := by omega
  simpa using hne

/-! ## Frames -/

theorem setCursor_openAt (w : World) (handle : CursorHandle) (cursor : Cursor) (n : Nat) :
    (w.setCursor handle cursor).openAt n =
      (w.openAt n).map fun c => if c.handle = handle then { c with cursor } else c := by
  have hkeys : (fun c : OpenCursor => c.handle.statement.id == n) ∘
      (fun c => if c.handle = handle then { c with cursor } else c) =
        fun c => c.handle.statement.id == n := by
    funext c
    by_cases hc : c.handle = handle <;> simp [hc]
  rw [openAt, setCursor, List.filter_map, hkeys]
  rfl

theorem setCursor_openAt_of_ne (w : World) {handle : CursorHandle} (cursor : Cursor) {n : Nat}
    (hne : handle.statement.id ≠ n) : (w.setCursor handle cursor).openAt n = w.openAt n := by
  have hsame : ∀ c ∈ w.openAt n, (if c.handle = handle then { c with cursor } else c) = c := by
    intro c hc
    have hid : c.handle.statement.id = n := by simpa using (List.mem_filter.mp hc).2
    have hother : c.handle ≠ handle := fun heq => hne (heq ▸ hid)
    simp [hother]
  calc
    (w.setCursor handle cursor).openAt n
        = (w.openAt n).map fun c => if c.handle = handle then { c with cursor } else c :=
          w.setCursor_openAt handle cursor n
    _ = (w.openAt n).map id := List.map_congr_left hsame
    _ = w.openAt n := List.map_id _

/-- Cursors are set by their handles. -/
theorem cursor?_setCursor_of_ne (w : World) {handle other : CursorHandle} (cursor : Cursor)
    (hne : other ≠ handle) : (w.setCursor other cursor).cursor? handle = w.cursor? handle := by
  have hkeys : (fun c : OpenCursor => c.handle == handle) ∘
      (fun c => if c.handle = other then { c with cursor } else c) =
        fun c => c.handle == handle := by
    funext c
    by_cases hc : c.handle = other <;> simp [hc]
  rw [cursor?, cursor?, setCursor, List.find?_map, hkeys, Option.map_map]
  cases hfind : w.cursors.find? fun c => c.handle == handle with
  | none => rfl
  | some c =>
      have hhandle : c.handle = handle := by simpa using List.find?_some hfind
      have hkept : c.handle ≠ other := fun hother => hne (hother.symm.trans hhandle)
      simp [hkept]

theorem cursor?_close_of_ne (w : World) {handle other : CursorHandle} (hne : other ≠ handle) :
    (w.close (.cursor other)).cursor? handle = w.cursor? handle := by
  cases hc : w.cursor? other with
  | none => simp only [close, hc]
  | some c => simpa only [close, hc] using w.cursor?_setCursor_of_ne c.close hne

theorem perform_openAt (w : World) {x : Effect} {id : Nat} (h : x.touches id = false) :
    (w.perform x).openAt id = w.openAt id := by
  cases x with
  | openCursor handle cursor =>
      have hne : (handle.statement.id == id) = false := by
        simpa [Effect.touches, Effect.handle?] using h
      simp [perform, openAt, hne]
  | readCursor handle =>
      have hne : handle.statement.id ≠ id := by
        simpa [Effect.touches, Effect.handle?] using h
      cases hc : w.cursor? handle with
      | none => simp [perform, hc]
      | some c => simpa [perform, hc] using w.setCursor_openAt_of_ne c.read.2 hne
  | announce | beginCall | endCall | trackStatement | trackCursor | countUnit => rfl

theorem performAll_openAt (w : World) {xs : List Effect} {id : Nat}
    (h : ∀ x ∈ xs, x.touches id = false) : (xs.foldl perform w).openAt id = w.openAt id := by
  induction xs generalizing w with
  | nil => rfl
  | cons x xs ih =>
      have hrest : ∀ y ∈ xs, y.touches id = false := fun y hy => h y (List.mem_cons_of_mem _ hy)
      rw [List.foldl_cons, ih _ hrest, perform_openAt _ (h x (List.mem_cons_self ..))]

@[simp] theorem setCursor_prepared (w : World) (handle : CursorHandle) (cursor : Cursor) :
    (w.setCursor handle cursor).prepared = w.prepared := rfl

theorem setCursor_ordered {w : World} (h : w.Ordered) (handle : CursorHandle) (cursor : Cursor) :
    (w.setCursor handle cursor).Ordered := by
  intro c hc
  rcases List.mem_map.mp hc with ⟨c', hc', rfl⟩
  have hlt := h c' hc'
  by_cases heq : c'.handle = handle <;> simpa [heq] using hlt

theorem perform_prepared (w : World) (x : Effect) : (w.perform x).prepared = w.prepared := by
  cases x with
  | readCursor handle => cases hc : w.cursor? handle <;> simp [perform, hc]
  | openCursor | announce | beginCall | endCall | trackStatement | trackCursor | countUnit => rfl

theorem perform_ordered {w : World} (h : w.Ordered) {x : Effect} (hx : x.Below w.prepared) :
    (w.perform x).Ordered := by
  cases x with
  | openCursor handle cursor =>
      intro c hc
      rcases List.mem_append.mp hc with hc | hc
      · exact h c hc
      · rw [List.mem_singleton.mp hc]
        exact hx handle rfl
  | readCursor handle =>
      cases hc : w.cursor? handle with
      | none => simpa [perform, hc] using h
      | some c => simpa [perform, hc] using setCursor_ordered h handle c.read.2
  | announce | beginCall | endCall | trackStatement | trackCursor | countUnit => exact h

theorem performAll_prepared (w : World) (xs : List Effect) :
    (xs.foldl perform w).prepared = w.prepared := by
  induction xs generalizing w with
  | nil => rfl
  | cons x xs ih => rw [List.foldl_cons, ih, perform_prepared]

/-- Effects that touch only what has a number give out none. -/
theorem performAll_ordered {w : World} {xs : List Effect} (h : w.Ordered)
    (hxs : ∀ x ∈ xs, x.Below w.prepared) : (xs.foldl perform w).Ordered := by
  induction xs generalizing w with
  | nil => exact h
  | cons x xs ih =>
      have hfirst : x.Below w.prepared := hxs x (List.mem_cons_self ..)
      have hrest : ∀ y ∈ xs, y.Below (w.perform x).prepared := by
        intro y hy
        rw [perform_prepared]
        exact hxs y (List.mem_cons_of_mem _ hy)
      exact ih (perform_ordered h hfirst) hrest

end World

namespace Session

/-- A history does its effects to a world and nothing else. -/
theorem replay_eq_foldl (h : History Effect Output) (w : World) :
    History.replay noteWorld h w = (History.effects h).foldl World.perform w := by
  induction h generalizing w with
  | nil => rfl
  | cons o h ih =>
      have hcons : History.replay noteWorld (o :: h) w =
          History.replay noteWorld h (noteWorld o w) := rfl
      rw [hcons, ih]
      cases o <;> rfl

/-- A history without effects on a cursor leaves it as it is. -/
theorem replay_openAt {h : History Effect Output} {w : World} {id : Nat}
    (hnone : (History.effects h).filter (Effect.touches id) = []) :
    (History.replay noteWorld h w).openAt id = w.openAt id := by
  rw [replay_eq_foldl]
  apply World.performAll_openAt
  simpa using List.filter_eq_nil_iff.mp hnone

theorem openAt_of_untouched {h : History Effect Output} {w : World} {id : Nat}
    {handle : CursorHandle} {cursor : Cursor} (hw : w.openAt id = [])
    (htouch : (History.effects h).filter (Effect.touches id) = [.openCursor handle cursor]) :
    (History.replay noteWorld h w).openAt id = [{ handle, cursor }] := by
  rcases List.filter_eq_cons_iff.mp htouch with ⟨before, after, hsplit, hbefore, hopen, hafter⟩
  have hlater : ∀ x ∈ after, x.touches id = false := by
    simpa using List.filter_eq_nil_iff.mp hafter
  have hearlier : ∀ x ∈ before, x.touches id = false := by simpa using hbefore
  have hid : (handle.statement.id == id) = true := by
    simpa [Effect.touches, Effect.handle?] using hopen
  have hnone := World.performAll_openAt w hearlier
  rw [replay_eq_foldl, hsplit, List.foldl_append, List.foldl_cons,
    World.performAll_openAt _ hlater]
  simp only [World.perform, World.openAt, List.filter_append] at hnone hw ⊢
  rw [hnone, hw]
  simp [hid]

theorem cursorOf_of_openAt {β : Type} {s : Session β} {r : QueryResult} {handle : CursorHandle}
    {cursor : Cursor} (hr : r.cursor? = some handle.statement.id)
    (hopen : s.world.openAt handle.statement.id = [{ handle, cursor }]) :
    s.cursorOf r = some (handle, cursor) := by
  have hhandle : s.world.handle? handle.statement.id = some handle := by
    rw [World.handle?, ← List.head?_filter]
    rw [World.openAt] at hopen
    rw [hopen]
    rfl
  have hcursor : s.world.cursor? handle = some cursor := by
    have hfilter : s.world.cursors.filter (fun c => c.handle == handle) =
        (s.world.openAt handle.statement.id).filter fun c => c.handle == handle := by
      rw [World.openAt, List.filter_filter]
      apply List.filter_congr
      intro c _
      by_cases hc : c.handle = handle <;> simp [hc]
    rw [World.cursor?, ← List.head?_filter, hfilter, hopen]
    simp
  simp [cursorOf, hr, hhandle, hcursor]

end Session

end ScatterGather
