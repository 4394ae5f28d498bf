import ScatterGather.Proofs.Reading
import ScatterGather.Proofs.Session.Exclusion

/-!
# Sharing — the cursors that are open on a connection when a call begins

Every acquisition gives a connection of its own.  The units of a group make their calls one behind
the other on theirs, and some leave the rows in their cursors.  A unit of another target never finds
such a cursor, for a connection of several targets has its rows read at once.  A unit of the same
target may find one, as many as its route has units of that target.

* `Job.entering?`, `Journal.opened`, `Journal.Unread` : a call that is about to begin, the cursors
  of a call, and whether one has come neither to its end nor to a failure;
* `Assignment.performed_of_call` : what a unit has done when it makes its call;
* `Assignment.not_unread_of_memory` : a cursor that is read at once;
* `Journal.Tells.opened_in_front` : the units whose cursors a call finds on its connection;
* `Session.stream_shares_with_own_target` : which of these cursors are left to be read;
* `Session.stream_unread_before_call` : a route that has two units of one target.
-/

namespace ScatterGather

/-! ## Cursors of a call -/

namespace Effect

/-- The cursor that is opened, by its handle and as it is then. -/
def opens? : Effect → Option (CursorHandle × Cursor)
  | openCursor handle cursor => some (handle, cursor)
  | _ => none

theorem opens?_eq_some {x : Effect} {p : CursorHandle × Cursor} :
    x.opens? = some p ↔ x = .openCursor p.1 p.2 := by
  cases x with
  | openCursor handle cursor => simp [opens?, Prod.ext_iff]
  | announce | beginCall | endCall | trackStatement | trackCursor | readCursor | countUnit =>
      simp [opens?]

end Effect

/-- The statement whose call is the next thing to do. -/
def Job.entering? (j : Job Effect Output) : Option Statement :=
  j.stage.todo.head?.bind Effect.begins?

namespace Journal

/-- The cursors that a call has opened, each as it was then. -/
def opened (j : Journal) (k : Nat) : List (CursorHandle × Cursor) :=
  (History.effects (History.ofCall k j.past)).filterMap Effect.opens?

/-- All reads of the cursor have given rows, if it was opened as `cursor`. -/
def Unread (j : Journal) (handle : CursorHandle) (cursor : Cursor) : Prop :=
  cursor.Unread ((History.effects j.past).countP (Effect.reads handle))

instance (j : Journal) (handle : CursorHandle) (cursor : Cursor) :
    Decidable (j.Unread handle cursor) :=
  inferInstanceAs (Decidable (cursor.Unread _))

end Journal

/-! ## Units -/

namespace Assignment

variable {b : Backend} {a : Assignment} {u : Placed BoundUnit} {handle : CursorHandle}
  {cursor : Cursor}

/-- A unit makes one call, and before that it does nothing but announce itself. -/
theorem performed_of_call {x : Effect} {st : Statement} {performed left : List Effect}
    (h : (a.work b u).effects = performed ++ x :: left) (hst : x.begins? = some st) :
    performed = a.announce u .before := by
  have hnone {xs : List Effect} (hquiet : ∀ y ∈ xs, y.begins? = none) : x ∉ xs := by
    intro hx
    rw [hquiet x hx] at hst
    cases hst
  have hbefore : x ∉ a.announce u .before := hnone fun y hy => (notes_announce hy).isQuiet.1
  have hbehind : x ∉ .endCall a.kind u.unit.statement ::
      ((a.afterCall b u).1 ++ a.conclude u (a.afterCall b u).2) := by
    refine hnone (List.forall_mem_cons.mpr ⟨rfl, List.forall_mem_append.mpr ⟨?_, ?_⟩⟩)
    · exact fun y hy => (isQuiet_afterCall hy).1
    · exact fun y hy => (notes_conclude hy).isQuiet.1
  -- the one beginning splits the effects in one way only
  exact ((List.append_cons_inj_of_notMem hbefore hbehind).mp h).1.symm

/-- Only a query opens a cursor, and it is the one that the data source answers with. -/
theorem query_of_openCursor (hx : .openCursor handle cursor ∈ (a.work b u).effects) :
    a.kind = .query ∧ b.query u.unit.statement = .answer cursor := by
  simp only [work, List.mem_append, List.mem_cons] at hx
  rcases hx with hx | hx | hx | hx | hx
  · cases (notes_announce hx).handle?_eq
  · cases hx
  · cases hx
  · rcases afterCall_cases b a u with ⟨hk, cursor', n, hq, hafter⟩ | ⟨-, hafter⟩
    · rw [hafter] at hx
      simp only [List.mem_cons, List.mem_replicate] at hx
      rcases hx with hx | hx | hx | ⟨-, hx⟩ <;> cases hx
      exact ⟨hk, hq⟩
    · rw [hafter] at hx
      cases hx
  · cases (notes_conclude hx).handle?_eq

/-- A unit whose rows are not left in the cursor reads it to its end, or to a failure, unless it
panics. -/
theorem not_unread_of_memory (hx : .openCursor handle cursor ∈ (a.work b u).effects)
    (hm : u.unit.mode = .memory) (hcalm : (a.work b u).outcome ≠ .panic) :
    ¬ cursor.Unread ((a.work b u).effects.countP (Effect.reads handle)) := by
  rcases query_of_openCursor hx with ⟨hk, hq⟩
  rw [handle_of_mem hx rfl]
  have hreads : (receive b u cursor).1 = List.replicate ((Buffer.readAll cursor).2.reads -
      cursor.reads) (.readCursor ⟨u.unit.statement⟩) := by
    rcases receive_memory b hm cursor with ⟨n, -, -, hpanic⟩ | ⟨-, hreceive⟩
    · refine absurd ?_ hcalm
      simp only [work, afterCall, hk, afterQuery, hq, hpanic]
    · exact congrArg Prod.fst hreceive
  have hsublist : (receive b u cursor).1.Sublist (a.work b u).effects := by
    refine List.IsInfix.sublist ⟨a.announce u .before ++ [.beginCall a.kind u.unit.statement,
      .endCall a.kind u.unit.statement, .openCursor ⟨u.unit.statement⟩ cursor,
      .trackStatement a.registry u.position u.unit.statement,
      .trackCursor a.registry u.position ⟨u.unit.statement⟩],
      a.conclude u (receive b u cursor).2, ?_⟩
    simp only [work, afterCall, hk, afterQuery, hq]
    simp
  -- there are at least as many reads as it takes to come to the last row
  have hle := hsublist.countP_le (p := Effect.reads ⟨u.unit.statement⟩)
  rw [hreads, List.countP_replicate, if_pos (by simp [Effect.reads])] at hle
  exact fun hunread => Buffer.not_unread_readAll cursor (hunread.mono hle)

end Assignment

/-! ## Calls -/

namespace Journal.Tells

variable {β : Type} {s : Session β} {j : Journal} {threads : Nat}

/-- A cursor on the connection of a group was opened in the batch of the group. -/
theorem opened_in_batch (h : j.Tells threads s) {k i : Nat} {o : Opened}
    {g : Group Connection BoundUnit} (ho : j.calls[k]? = some o) (hg : o.groups[i]? = some g)
    {p : CursorHandle × Cursor} (hp : p ∈ j.opened k)
    (hsame : p.1.statement.connection = g.connection) :
    .openCursor p.1 p.2 ∈ History.effects (History.trail i (History.ofCall k j.past)) := by
  rcases List.mem_filterMap.mp hp with ⟨x, hopened, hx⟩
  rw [Effect.opens?_eq_some.mp hx] at hopened
  rcases h.orderly ho with ⟨sh, horderly, -, hhistory⟩
  rw [← hhistory] at hopened ⊢
  rcases horderly.valid.exists_lane hopened with ⟨l, hl, hlane, w, hw, hopen⟩
  rcases Task.mem_lanes.mp hl with ⟨i', batch, hbatch, rfl⟩
  rcases Opened.getElem?_batches.mp hbatch with ⟨g', hg', rfl⟩
  rcases List.mem_map.mp hw with ⟨v, hv, rfl⟩
  -- no other group is on the connection of the unit that has opened it
  rw [Assignment.handle_of_mem hopen rfl, (h.bound ho (List.mem_of_getElem? hg') hv).2.2] at hsame
  have hplace := h.place_eq (mem_places ho hg') (mem_places ho hg) (congrArg Connection.id hsame)
  have hi : i' = i := congrArg (fun p => p.1.2) hplace
  exact hi ▸ hlane

/-- The cursors that a call finds on its connection when it begins are those of the units in front
of it, which have done all that they do. -/
theorem opened_in_front (h : j.Tells threads s) {job : Job Effect Output}
    (hjob : job ∈ s.engine.jobs) {st : Statement} (hst : job.entering? = some st) :
    ∃ o g front u back, j.calls[job.call]? = some o ∧ o.groups[job.batch]? = some g ∧
      g.units = front ++ u :: back ∧ u.unit.statement = st ∧
      ∀ p ∈ j.opened job.call, p.1.statement.connection = st.connection → ∃ v ∈ front,
        .openCursor p.1 p.2 ∈ (o.assignment.work s.backend v).effects ∧
        (o.assignment.work s.backend v).outcome ≠ .panic ∧
        (o.assignment.work s.backend v).effects.Sublist (History.effects j.past) := by
  rcases Option.bind_eq_some_iff.mp hst with ⟨x, hx, hbegins⟩
  rcases List.head?_eq_some_iff.mp hx with ⟨left, htodo⟩
  rcases h.exists_unit hjob (by simp [htodo]) with
    ⟨o, g, front, u, back, performed, ho, hg, hunits, -, hcalm, heffects, hpast⟩
  rw [htodo] at heffects
  obtain rfl : st = u.unit.statement := by
    have hmem : x ∈ (o.assignment.work s.backend u).effects := by simp [heffects]
    exact Assignment.statement_of_serves hmem (Effect.serves?_of_begins hbegins)
  have hu : u ∈ g.units := by simp [hunits]
  refine ⟨o, g, front, u, back, ho, hg, hunits, rfl, ?_⟩
  intro p hp hsame
  rw [(h.bound ho (List.mem_of_getElem? hg) hu).2.2] at hsame
  have hopen := h.opened_in_batch ho hg hp hsame
  -- what the batch has done is part of what has happened at all
  have hpart : (History.effects (History.trail job.batch (History.ofCall job.call j.past))).Sublist
      (History.effects j.past) := (List.filter_sublist.trans List.filter_sublist).filterMap _
  -- the unit itself has announced its call and opened nothing
  rw [hpast, Assignment.performed_of_call heffects hbegins] at hopen hpart
  rcases List.mem_append.mp hopen with hfront | hannounced
  · rcases List.mem_flatMap.mp hfront with ⟨v, hv, hvopen⟩
    have hwork : (o.assignment.work s.backend v).effects.Sublist
        (front.flatMap fun v => (o.assignment.work s.backend v).effects) :=
      List.sublist_flatten_of_mem (List.mem_map_of_mem hv)
    exact ⟨v, hv, hvopen, hcalm v hv, hwork.trans ((List.sublist_append_left ..).trans hpart)⟩
  · cases (Assignment.notes_announce hannounced).handle?_eq

end Journal.Tells

namespace Session

variable {β : Type} {s : Session β} {j : Journal} {threads : Nat} {backend : Backend}
  {executors : List Executor} {recorders : Nat}

/-- Where every acquisition gives a connection of its own, as `World.binder` does, all cursors that
a call has opened on the connection of a unit that is about to make its call are those of units in
front of it.  The one of a stream belongs to a unit of the same target, and every other has been
read to its end or to a failure.  In whatever way a route is grouped, the connection of a stream
serves the units of its target and no others. -/
theorem stream_shares_with_own_target
    (hrun : Run journaled? (start threads backend executors recorders, .empty) (s, j)) :
    (∀ job ∈ s.engine.jobs, ∀ st, job.entering? = some st →
      ∃ o g front u back, j.calls[job.call]? = some o ∧ o.groups[job.batch]? = some g ∧
        g.units = front ++ u :: back ∧ u.unit.statement = st ∧
        ∀ p ∈ j.opened job.call, p.1.statement.connection = st.connection →
          ∃ v ∈ front, p.1 = ⟨v.unit.statement⟩ ∧
            (v.unit.mode = .stream ∧ v.unit.route.target = u.unit.route.target ∨
              v.unit.mode = .memory ∧ ¬ j.Unread p.1 p.2)) ∧
    ∀ options cap route w w' groups,
      (Grouping.group (World.binder backend options) cap route).run w = (.ok groups, w') →
      ∀ u ∈ groups.flatMap Group.units, u.unit.mode = .stream →
        ∀ v ∈ groups.flatMap Group.units,
          v.unit.connection = u.unit.connection ↔ v.unit.route.target = u.unit.route.target := by
  refine ⟨?_, fun _ _ _ _ _ _ h _ hu hm _ hv => Grouping.connection_eq_iff_of_stream h hu hm hv⟩
  intro job hjob st hst
  have h := tells_of_run hrun
  rcases h.opened_in_front hjob hst with ⟨o, g, front, u, back, ho, hg, hunits, hstatement, hopened⟩
  refine ⟨o, g, front, u, back, ho, hg, hunits, hstatement, ?_⟩
  intro p hp hsame
  rcases hopened p hp hsame with ⟨v, hv, hvopen, hcalm, hpast⟩
  refine ⟨v, hv, Assignment.handle_of_mem hvopen rfl, ?_⟩
  cases hm : v.unit.mode with
  | stream =>
      rcases h.grouped o (List.mem_of_getElem? ho) with ⟨w, w', hgroup⟩
      have hmem := List.mem_of_getElem? hg
      have hvg : v ∈ g.units := by simp [hunits, hv]
      have hug : u ∈ g.units := by simp [hunits]
      -- one unit of the group streams, so all of them have one target
      have hmode : g.mode = .stream := (Grouping.bound_of_mem hgroup hmem hvg).2.2.1 ▸ hm
      exact .inl ⟨rfl, (Grouping.mode_eq_stream hgroup hmem hug).mp hmode v hvg⟩
  | memory =>
      refine .inr ⟨rfl, fun hunread => ?_⟩
      exact Assignment.not_unread_of_memory hvopen hm hcalm (hunread.mono hpast.countP_le)

/-! ## An example -/

/-- Units of two targets are on one connection, and the first has read its rows. -/
theorem stream_shares_with_own_target_triple :
    ∃ (s : Session Unit) (j : Journal) (job : Job Effect Output) (st : Statement)
      (p : CursorHandle × Cursor),
      Run journaled? (start 1 .willing [.triple] 0, .empty) (s, j) ∧ job ∈ s.engine.jobs ∧
        job.entering? = some st ∧ p ∈ j.opened job.call ∧
        p.1.statement.connection = st.connection ∧ ¬ j.Unread p.1 p.2 := by
  have hseen : ∃ r ∈ (calling .query 0 0 4 13 0).foldlM journaled?
        (start 1 .willing [.triple] 0, .empty),
      ∃ job ∈ r.1.engine.jobs, ∃ st ∈ job.entering?, ∃ p ∈ r.2.opened job.call,
        p.1.statement.connection = st.connection ∧
        ∀ v ∈ r.2.units, v.unit.statement = p.1.statement → v.unit.mode = .memory := by
    decide +kernel
  rcases hseen with ⟨⟨s, j⟩, hmoves, job, hjob, st, hst, p, hp, hsame, hmemory⟩
  have hrun := Run.of_moves hmoves
  refine ⟨s, j, job, st, p, hrun, hjob, hst, hp, hsame, ?_⟩
  rcases (stream_shares_with_own_target hrun).1 job hjob st hst with
    ⟨o, g, front, u, back, ho, hg, hunits, -, hopened⟩
  rcases hopened p hp hsame with ⟨v, hv, hhandle, ⟨hstream, -⟩ | ⟨-, hread⟩⟩
  · -- on this connection no unit streams
    have hvj : v ∈ j.units := by
      refine List.mem_flatMap.mpr ⟨o, List.mem_of_getElem? ho, ?_⟩
      exact List.mem_flatMap.mpr ⟨g, List.mem_of_getElem? hg, by simp [hunits, hv]⟩
    have hmode := hmemory v hvj (by rw [hhandle])
    rw [hstream] at hmode
    cases hmode
  · exact hread

end Session

/-- Two units of one target, which have a connection to themselves. -/
def Executor.paired : Executor :=
  { Executor.triple with
    cap := 1
    route := ["SELECT 0", "SELECT 1"].map fun sql => ⟨"ds_0", ⟨sql, []⟩⟩ }

namespace Session

/-- The first of two units has left its rows in the cursor when the second makes its call on the
same connection, and neither is the only unit of the connection. -/
theorem stream_unread_before_call :
    (∃ (s : Session Unit) (j : Journal) (job : Job Effect Output) (st : Statement)
      (p : CursorHandle × Cursor) (v : Placed BoundUnit),
      Run journaled? (start 1 .willing [.paired] 0, .empty) (s, j) ∧ job ∈ s.engine.jobs ∧
        job.entering? = some st ∧ p ∈ j.opened job.call ∧
        p.1.statement.connection = st.connection ∧ v ∈ j.units ∧ v.unit.mode = .stream ∧
        p.1 = ⟨v.unit.statement⟩ ∧ v.unit.statement ≠ st ∧ j.Unread p.1 p.2) ∧
    ∃ groups w u v, (Grouping.group (World.binder .willing Executor.paired.options)
        Executor.paired.cap Executor.paired.route).run .empty = (.ok groups, w) ∧
      u ∈ groups.flatMap Group.units ∧ v ∈ groups.flatMap Group.units ∧ u.unit.mode = .stream ∧
      v.unit.connection = u.unit.connection ∧ v.position ≠ u.position := by
  constructor
  · have hseen : ∃ r ∈ (calling .query 0 0 2 11 0).foldlM journaled?
          (start 1 .willing [.paired] 0, .empty),
        ∃ job ∈ r.1.engine.jobs, ∃ st ∈ job.entering?, ∃ p ∈ r.2.opened job.call,
          ∃ v ∈ r.2.units, p.1.statement.connection = st.connection ∧ v.unit.mode = .stream ∧
            p.1 = ⟨v.unit.statement⟩ ∧ v.unit.statement ≠ st ∧ r.2.Unread p.1 p.2 := by
      decide +kernel
    rcases hseen with
      ⟨⟨s, j⟩, hmoves, job, hjob, st, hst, p, hp, v, hv, hsame, hmode, hhandle, hother, hunread⟩
    exact ⟨s, j, job, st, p, v, Run.of_moves hmoves, hjob, hst, hp, hsame, hv, hmode, hhandle,
      hother, hunread⟩
  · exact ⟨_, _, _, _, rfl, List.mem_cons_self .., List.mem_cons_of_mem _ (List.mem_cons_self ..),
      rfl, rfl, by decide⟩

end Session

end ScatterGather
