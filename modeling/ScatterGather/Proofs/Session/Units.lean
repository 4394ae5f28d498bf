import ScatterGather.Proofs.Engine.Effects
import ScatterGather.Proofs.Reading
import ScatterGather.Proofs.Session.Cursors

/-!
# Units — what one unit does, above all to cursors

Whatever its entry point and however its call comes out, a unit touches no cursor but that of its
own statement.  A query on a connection of its own opens it and leaves it alone.

* `Assignment.receive_memory` : a unit that reads its cursor at once;
* `Assignment.Does` : everything that a unit can do, to nothing but its own statement;
* `Assignment.Comes` : every way in which a unit can come out;
* `Assignment.handle_of_mem` : the only cursor in the effects of a unit;
* `QueryResult.Of` : the result that a cursor gives to a unit;
* `Assignment.work_query` : how a query with an open cursor comes out.
-/

namespace ScatterGather

/-- The result of a unit whose query has opened a cursor. -/
inductive QueryResult.Of (u : BoundUnit) (cursor : Cursor) : QueryResult → Prop
  /-- The rows are left in the cursor. -/
  | stream (hm : u.mode = .stream) :
      Of u cursor (.stream (.ofCursor u.route.target u.statement.id cursor u.connection))
  /-- All rows were read when the unit ran. -/
  | memory {rows : List Row} (hm : u.mode = .memory) (hr : (Buffer.readAll cursor).1 = .ok rows) :
      Of u cursor (.memory (.ofRows u.route.target cursor.columns rows))

namespace Assignment

variable {b : Backend} {a : Assignment} {u : Placed BoundUnit} {x : Effect}

/-! ## The effects of a unit -/

/-- Everything that a unit can do. -/
inductive Does (a : Assignment) (u : Placed BoundUnit) : Effect → Prop
  | announce (recorder : Nat) (event : Event) : Does a u (.announce recorder event)
  | beginCall : Does a u (.beginCall a.kind u.unit.statement)
  | endCall : Does a u (.endCall a.kind u.unit.statement)
  | openCursor (cursor : Cursor) : Does a u (.openCursor ⟨u.unit.statement⟩ cursor)
  | trackStatement : Does a u (.trackStatement a.registry u.position u.unit.statement)
  | trackCursor : Does a u (.trackCursor a.registry u.position ⟨u.unit.statement⟩)
  | readCursor : Does a u (.readCursor ⟨u.unit.statement⟩)
  | countUnit (success : Bool) : Does a u (.countUnit a.kind success)

/-- What is told of a unit, to the recorders and to the metrics. -/
inductive Notes (a : Assignment) : Effect → Prop
  | announce (recorder : Nat) (event : Event) : Notes a (.announce recorder event)
  | countUnit (success : Bool) : Notes a (.countUnit a.kind success)

theorem notes_announce {kind : EventKind} (hx : x ∈ a.announce u kind) : a.Notes x := by
  rcases List.mem_map.mp hx with ⟨recorder, -, rfl⟩
  exact .announce recorder _

theorem notes_conclude {outcome : Outcome Output} (hx : x ∈ a.conclude u outcome) : a.Notes x := by
  cases outcome with
  | value output =>
      rcases List.mem_cons.mp hx with rfl | hx
      · exact .countUnit true
      · exact notes_announce hx
  | failure e =>
      rcases List.mem_cons.mp hx with rfl | hx
      · exact .countUnit false
      · exact notes_announce hx
  | panic => cases hx

theorem Notes.does (h : a.Notes x) : a.Does u x := by
  cases h with
  | announce recorder event => exact .announce recorder event
  | countUnit success => exact .countUnit success

/-- A unit that reads its cursor at once comes to a read that panics, or reads up to the end or to a
failure. -/
theorem receive_memory (b : Backend) (hm : u.unit.mode = .memory) (cursor : Cursor) :
    (∃ n, b.drainPanic? u.unit.statement = some n ∧
      n < (Buffer.readAll cursor).2.reads - cursor.reads ∧
      receive b u cursor = (List.replicate n (.readCursor ⟨u.unit.statement⟩), .panic)) ∨
    (∀ n ∈ b.drainPanic? u.unit.statement,
      (Buffer.readAll cursor).2.reads - cursor.reads ≤ n) ∧
      receive b u cursor =
        (List.replicate ((Buffer.readAll cursor).2.reads - cursor.reads)
            (.readCursor ⟨u.unit.statement⟩),
          drained u (((Buffer.readAll cursor).1.mapError (cursorError u.unit.route.target)).map
            (.ofRows u.unit.route.target cursor.columns))) := by
  simp only [receive, hm, Buffer.drain_eq]
  cases hpanic : b.drainPanic? u.unit.statement with
  | none => exact .inr ⟨by simp, rfl⟩
  | some n =>
      by_cases hlt : n < (Buffer.readAll cursor).2.reads - cursor.reads
      · exact .inl ⟨n, rfl, hlt, by simp [Option.filter, hlt]⟩
      · exact .inr ⟨by simpa using hlt, by simp [Option.filter, hlt]⟩

theorem receive_reads (b : Backend) (u : Placed BoundUnit) (cursor : Cursor) :
    ∃ n, (receive b u cursor).1 = List.replicate n (.readCursor ⟨u.unit.statement⟩) := by
  cases hm : u.unit.mode with
  | stream => exact ⟨0, by simp [receive, hm]⟩
  | memory =>
      rcases receive_memory b hm cursor with ⟨n, -, -, h⟩ | ⟨-, h⟩
      · exact ⟨n, congrArg Prod.fst h⟩
      · exact ⟨_, congrArg Prod.fst h⟩

/-- Behind its call a query that has opened a cursor tracks it and may read it, and no other unit
does anything. -/
theorem afterCall_cases (b : Backend) (a : Assignment) (u : Placed BoundUnit) :
    (a.kind = .query ∧ ∃ cursor n, b.query u.unit.statement = .answer cursor ∧
      (a.afterCall b u).1 = .openCursor ⟨u.unit.statement⟩ cursor ::
        .trackStatement a.registry u.position u.unit.statement ::
        .trackCursor a.registry u.position ⟨u.unit.statement⟩ ::
          List.replicate n (.readCursor ⟨u.unit.statement⟩)) ∨
    (¬ (a.kind = .query ∧ ∃ cursor, b.query u.unit.statement = .answer cursor)) ∧
      (a.afterCall b u).1 = [] := by
  cases hk : a.kind with
  | query =>
      cases hq : b.query u.unit.statement with
      | answer cursor =>
          rcases receive_reads b u cursor with ⟨n, hreads⟩
          exact .inl ⟨rfl, cursor, n, rfl, by simp only [afterCall, hk, afterQuery, hq, hreads]⟩
      | failure e => exact .inr ⟨by simp, by simp only [afterCall, hk, afterQuery, hq]⟩
      | panic => exact .inr ⟨by simp, by simp only [afterCall, hk, afterQuery, hq]⟩
  | update =>
      refine .inr ⟨by simp, ?_⟩
      cases hu : b.update u.unit.statement <;> simp only [afterCall, hk, hu, simple]
  | execute =>
      refine .inr ⟨by simp, ?_⟩
      cases he : b.execute u.unit.statement <;> simp only [afterCall, hk, he, simple]

theorem does_afterCall (hx : x ∈ (a.afterCall b u).1) : a.Does u x := by
  rcases afterCall_cases b a u with ⟨-, cursor, n, -, hafter⟩ | ⟨-, hafter⟩
  · rw [hafter] at hx
    simp only [List.mem_cons] at hx
    rcases hx with rfl | rfl | rfl | hx
    · exact .openCursor cursor
    · exact .trackStatement
    · exact .trackCursor
    · exact (List.mem_replicate.mp hx).2 ▸ .readCursor
  · rw [hafter] at hx
    cases hx

theorem does_of_mem (hx : x ∈ (a.work b u).effects) : a.Does u x := by
  simp only [work, List.mem_append, List.mem_cons] at hx
  rcases hx with hx | rfl | rfl | hx | hx
  · exact (notes_announce hx).does
  · exact .beginCall
  · exact .endCall
  · exact does_afterCall hx
  · exact (notes_conclude hx).does

/-! ## The outcome of a unit -/

/-- Every way in which a unit can come out. -/
inductive Comes (a : Assignment) (u : Placed BoundUnit) : Outcome Output → Prop
  /-- The rows are left in the cursor. -/
  | stream (hk : a.kind = .query) (hm : u.unit.mode = .stream) (cursor : Cursor) :
      Comes a u (.value (.rows (.stream
        (.ofCursor u.unit.route.target u.unit.statement.id cursor u.unit.connection))))
  /-- All rows were read. -/
  | memory (hk : a.kind = .query) (hm : u.unit.mode = .memory) (buffer : Buffer) :
      Comes a u (.value (.rows (.memory buffer)))
  | count (hk : a.kind = .update) (n : Option UInt64) : Comes a u (.value (.count n))
  | flag (hk : a.kind = .execute) (producedRows : Bool) : Comes a u (.value (.flag producedRows))
  | failure (reason : String) : Comes a u (.failure (unitError u reason))
  | panic : Comes a u .panic

theorem comes_receive (hk : a.kind = .query) (cursor : Cursor) :
    a.Comes u (receive b u cursor).2 := by
  cases hm : u.unit.mode with
  | stream =>
      simp only [receive, hm]
      exact .stream hk hm cursor
  | memory =>
      rcases receive_memory b hm cursor with ⟨n, -, -, h⟩ | ⟨-, h⟩
      · rw [h]
        exact .panic
      · rw [h]
        cases (Buffer.readAll cursor).1 with
        | error e => exact .failure (cursorError u.unit.route.target e).message
        | ok rows => exact .memory hk hm (.ofRows u.unit.route.target cursor.columns rows)

theorem comes_work (b : Backend) (a : Assignment) (u : Placed BoundUnit) :
    a.Comes u (a.work b u).outcome := by
  have hcall : (a.work b u).outcome = (a.afterCall b u).2 := rfl
  rw [hcall]
  cases hk : a.kind with
  | query =>
      cases hq : b.query u.unit.statement with
      | answer cursor =>
          simp only [afterCall, hk, afterQuery, hq]
          exact comes_receive hk cursor
      | failure e =>
          simp only [afterCall, hk, afterQuery, hq]
          exact .failure e.message
      | panic =>
          simp only [afterCall, hk, afterQuery, hq]
          exact .panic
  | update =>
      cases hu : b.update u.unit.statement with
      | answer n =>
          simp only [afterCall, hk, hu, simple]
          exact .count hk n
      | failure e =>
          simp only [afterCall, hk, hu, simple]
          exact .failure e.message
      | panic =>
          simp only [afterCall, hk, hu, simple]
          exact .panic
  | execute =>
      cases he : b.execute u.unit.statement with
      | answer producedRows =>
          simp only [afterCall, hk, he, simple]
          exact .flag hk producedRows
      | failure e =>
          simp only [afterCall, hk, he, simple]
          exact .failure e.message
      | panic =>
          simp only [afterCall, hk, he, simple]
          exact .panic

/-! ## The cursor of a unit -/

theorem Notes.handle?_eq (h : a.Notes x) : x.handle? = none := by
  cases h <;> rfl

/-- A unit touches the cursor of its own statement and no other. -/
theorem handle_of_mem {handle : CursorHandle} (hx : x ∈ (a.work b u).effects)
    (hh : x.handle? = some handle) : handle = ⟨u.unit.statement⟩ := by
  cases does_of_mem hx with
  | openCursor cursor => exact (Option.some.inj hh).symm
  | readCursor => exact (Option.some.inj hh).symm
  | announce | beginCall | endCall | trackStatement | trackCursor | countUnit => cases hh

theorem work_below {n : Nat} (h : u.unit.statement.id < n) : (a.work b u).All (Effect.Below n) := by
  intro x hx handle hh
  rw [handle_of_mem hx hh]
  exact h

theorem touches_of_ne {id : Nat} (hx : x ∈ (a.work b u).effects) (hne : u.unit.statement.id ≠ id) :
    x.touches id = false := by
  cases hh : x.handle? with
  | none => simp [Effect.touches, hh]
  | some handle => simp [Effect.touches, hh, handle_of_mem hx hh, hne]

/-- Of units with statements of their own only one touches a given cursor. -/
theorem filter_touches_units {us : List (Placed BoundUnit)}
    (hids : (us.map fun u => u.unit.statement.id).Nodup) (hu : u ∈ us) :
    (us.flatMap fun v => (a.work b v).effects).filter (Effect.touches u.unit.statement.id) =
      (a.work b u).effects.filter (Effect.touches u.unit.statement.id) := by
  rcases List.append_of_mem hu with ⟨front, back, rfl⟩
  rw [List.map_append, List.map_cons, List.nodup_middle, List.nodup_cons] at hids
  have hothers : ∀ v ∈ front ++ back, v.unit.statement.id ≠ u.unit.statement.id := by
    intro v hv hsame
    apply hids.1
    rw [← List.map_append]
    exact List.mem_map.mpr ⟨v, hv, hsame⟩
  have hnone (vs : List (Placed BoundUnit)) (hvs : ∀ v ∈ vs, v ∈ front ++ back) :
      (vs.flatMap fun v => (a.work b v).effects).filter
        (Effect.touches u.unit.statement.id) = [] := by
    apply List.filter_eq_nil_iff.mpr
    intro x hx
    rcases List.mem_flatMap.mp hx with ⟨v, hv, hxv⟩
    simp [touches_of_ne hxv (hothers v (hvs v hv))]
  rw [List.flatMap_append, List.flatMap_cons, List.filter_append, List.filter_append,
    hnone front fun v hv => List.mem_append_left back hv,
    hnone back fun v hv => List.mem_append_right front hv, List.nil_append, List.append_nil]

/-! ## Queries -/

variable {cursor : Cursor}

/-- A query whose cursor opens, and can be read to its end where that is asked, succeeds. -/
theorem work_query (hk : a.kind = .query) (hq : b.query u.unit.statement = .answer cursor)
    (hdrain : u.unit.mode = .memory →
      ∃ rows, cursor.Drains (b.drainPanic? u.unit.statement) rows) :
    ∃ r, (a.work b u).outcome = .value (.rows r) ∧ r.Of u.unit cursor := by
  cases hm : u.unit.mode with
  | stream =>
      refine ⟨_, ?_, .stream hm⟩
      simp only [work, afterCall, hk, afterQuery, hq, receive, hm]
  | memory =>
      rcases hdrain hm with ⟨rows, hrows, hcalm⟩
      have hreads := Buffer.reads_readAll_ok hrows
      refine ⟨_, ?_, .memory hm hrows⟩
      rcases receive_memory b hm cursor with ⟨n, hpanic, hlt, -⟩ | ⟨-, h⟩
      · -- the end comes in front of the read that would panic
        have hfar := hcalm n hpanic
        omega
      · simp only [work, afterCall, hk, afterQuery, hq, h, hrows]
        rfl

/-- A query on a connection of its own opens its cursor and never touches it again. -/
theorem filter_touches_stream (hk : a.kind = .query)
    (hq : b.query u.unit.statement = .answer cursor) (hm : u.unit.mode = .stream) :
    (a.work b u).effects.filter (Effect.touches u.unit.statement.id) =
      [.openCursor ⟨u.unit.statement⟩ cursor] := by
  have hannounce (kind : EventKind) :
      (a.announce u kind).filter (Effect.touches u.unit.statement.id) = [] :=
    List.filter_eq_nil_iff.mpr fun x hx => by
      simp [Effect.touches, (notes_announce hx).handle?_eq]
  have hconclude (outcome : Outcome Output) :
      (a.conclude u outcome).filter (Effect.touches u.unit.statement.id) = [] :=
    List.filter_eq_nil_iff.mpr fun x hx => by
      simp [Effect.touches, (notes_conclude hx).handle?_eq]
  simp only [work, afterCall, hk, afterQuery, hq, receive, hm, List.filter_append, hannounce]
  simp [hconclude, Effect.touches, Effect.handle?]

end Assignment

end ScatterGather
