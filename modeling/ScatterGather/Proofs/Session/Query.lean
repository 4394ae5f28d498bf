import ScatterGather.Proofs.Reading
import ScatterGather.Proofs.Session.Answering

/-!
# Query — a query whose units all succeed

A route is cut into groups, its units run in any order on any worker, and their reports come in as
they may.  A query returns one result for each unit of the route all the same, in the order of the
route and each out of the cursor that its own statement has opened.

* `Session.Answering` : all that the groups of a query ask for is granted;
* `Session.Delivers` : the result of one unit, with what its client reads out of it;
* `Session.yields_delivered` : the results that a call comes to whose groups are so;
* `Session.query_results` : the results of a query, in every run of every session.
-/

namespace ScatterGather

namespace Session

variable {β : Type} {s s₂ s' : Session β} {x : Nat} {e : Executor}
  {groups : List (Group Connection BoundUnit)} {w : World} {sweeping : Bool}
  {threads : Nat} {backend : Backend} {executors : List Executor} {recorders : Nat}

/-! ## Units -/

/-- Every query of the groups opens a cursor, and those that have to be read at once can be. -/
def Answering (b : Backend) (groups : List (Group Connection BoundUnit)) : Prop :=
  ∀ g ∈ groups, ∀ u ∈ g.units, ∃ cursor, b.query u.unit.statement = .answer cursor ∧
    (g.mode = .memory → ∃ rows, cursor.Drains (b.drainPanic? u.unit.statement) rows)

theorem Answering.work {g : Group Connection BoundUnit} {u : Placed BoundUnit}
    (hquery : Answering s.backend groups)
    (h : s.Grouped e groups w) (hg : g ∈ groups) (hu : u ∈ g.units) :
    ∃ cursor r, s.backend.query u.unit.statement = .answer cursor ∧
      ((s.assignment x e .query).work s.backend u).outcome = .value (.rows r) ∧
      r.Of u.unit cursor := by
  rcases hquery g hg u hu with ⟨cursor, hcursor, hdrain⟩
  rcases Grouping.bound_of_mem h hg hu with ⟨-, -, hmode, -⟩
  rcases Assignment.work_query (a := s.assignment x e .query) rfl hcursor (hmode ▸ hdrain) with
    ⟨r, houtcome, hr⟩
  exact ⟨cursor, r, hcursor, houtcome, hr⟩

theorem Answering.succeeds (hquery : Answering s.backend groups)
    (h : s.Grouped e groups w) : ∀ u ∈ (s.task x e .query groups).units, u.Succeeds := by
  intro u hu
  rw [task_units] at hu
  rcases List.mem_map.mp hu with ⟨p, hp, rfl⟩
  rcases List.mem_flatMap.mp hp with ⟨g, hg, hpg⟩
  rcases hquery.work (x := x) h hg hpg with ⟨cursor, r, -, houtcome, -⟩
  exact ⟨_, houtcome⟩

/-! ## The answer -/

theorem exists_share {past : History Effect Output} {answer : Answer Output}
    (hrun : Run step? (Session.start threads backend executors recorders) s)
    (h : s.Grouped e groups w) (hquery : Answering s.backend groups)
    (hpast : ∀ before, Run (Engine.act? History.note)
      ((s.open x e .query).2.engine.withWorld before) (s'.engine.withWorld (before ++ past)))
    (hanswer : s'.engine.answer? s.engine.calls.length = some answer) :
    ∃ (sh : Share Effect Output) (slots : List (Option Output)), answer = .ok slots ∧
      sh.history = History.ofCall s.engine.calls.length past ∧
      sh.Valid (s.task x e .query groups) ∧ sh.Complete (s.task x e .query groups) ∧
      sh.Answered (s.task x e .query groups) (.ok slots) := by
  rcases exists_answered hrun h hpast hanswer with ⟨sh, hhistory, v, hanswered⟩
  have hnum := (task_numbered x .query h).1
  rcases hanswered.ok_of_succeeds v hnum (hquery.succeeds h) with ⟨hcomplete, slots, rfl⟩
  exact ⟨sh, slots, rfl, hhistory, v, hcomplete, hanswered⟩

/-- The merged results of full slots, by the units that they came from. -/
theorem results_of_slots {sh : Share Effect Output} {slots : List (Option Output)} (queryId : Nat)
    (h : s.Grouped e groups w) (hquery : Answering s.backend groups)
    (hanswered : sh.Answered (s.task x e .query groups) (.ok slots))
    (v : sh.Valid (s.task x e .query groups)) :
    ∃ rs, Response.ofAnswer .query queryId (.ok slots) = .results rs ∧
      rs.length = e.route.length ∧
      ∀ g ∈ groups, ∀ u ∈ g.units, ∃ cursor r, s.backend.query u.unit.statement = .answer cursor ∧
        rs[u.position]? = some r ∧ r.Of u.unit cursor := by
  rcases task_numbered x .query h with ⟨hnum, htotal⟩
  rcases hanswered.slots v hnum with ⟨hlength, -, hvalues⟩
  -- a unit of a group and the slot at its position
  have hunit : ∀ g ∈ groups, ∀ u ∈ g.units, ∃ cursor r,
      s.backend.query u.unit.statement = .answer cursor ∧
        slots[u.position]? = some (some (.rows r)) ∧ r.Of u.unit cursor := by
    intro g hg u hu
    rcases hquery.work (x := x) h hg hu with ⟨cursor, r, hcursor, houtcome, hr⟩
    have hmem : (s.assignment x e .query).work s.backend u ∈ (s.task x e .query groups).units := by
      rw [task_units]
      exact List.mem_map_of_mem (List.mem_flatMap.mpr ⟨g, hg, hu⟩)
    rcases hvalues _ hmem with ⟨a, ha, hslot⟩
    rw [houtcome] at ha
    cases ha
    exact ⟨cursor, r, hcursor, hslot, hr⟩
  have hfull : ∀ slot ∈ slots, ∃ r, slot = some (.rows r) := by
    intro slot hslot
    rcases List.getElem?_of_mem hslot with ⟨position, hposition⟩
    have hlt : position < (s.task x e .query groups).total :=
      hlength ▸ (List.getElem?_eq_some_iff.mp hposition).1
    rcases hnum.exists_unit hlt with ⟨v, hv, rfl⟩
    rw [task_units] at hv
    rcases List.mem_map.mp hv with ⟨u, hu, rfl⟩
    rcases List.mem_flatMap.mp hu with ⟨g, hg, hug⟩
    rcases hunit g hg u hug with ⟨cursor, r, -, hrows, -⟩
    exact ⟨r, Option.some.inj (hposition.symm.trans hrows)⟩
  rcases Response.ofAnswer_rows queryId hfull with ⟨rs, hslots, hresponse⟩
  refine ⟨rs, hresponse, ?_, ?_⟩
  · rw [← htotal, ← hlength, hslots, List.length_map]
  · intro g hg u hu
    rcases hunit g hg u hu with ⟨cursor, r, hcursor, hrows, hr⟩
    refine ⟨cursor, r, hcursor, ?_, hr⟩
    rw [hslots, List.getElem?_map, Option.map_eq_some_iff] at hrows
    rcases hrows with ⟨r', hr', hsame⟩
    cases hsame
    exact hr'

/-- A unit that streams has opened its cursor, and nothing was done to it since but to close it. -/
theorem openAt_of_stream {sh : Share Effect Output} {g : Group Connection BoundUnit}
    {u : Placed BoundUnit} {cursor : Cursor} {past : History Effect Output}
    (h : s.Grouped e groups w) (hg : g ∈ groups) (hu : u ∈ g.units)
    (hreserved : s'.Reserved s.engine.calls.length u.unit.statement.id sweeping past)
    (hhistory : sh.history = History.ofCall s.engine.calls.length past)
    (v : sh.Valid (s.task x e .query groups)) (hcomplete : sh.Complete (s.task x e .query groups))
    (hcursor : s.backend.query u.unit.statement = .answer cursor)
    (hstream : u.unit.mode = .stream) :
    ∃ c, OpenCursor.Tended sweeping { handle := ⟨u.unit.statement⟩, cursor } c ∧
      s'.world.openAt u.unit.statement.id = [c] := by
  apply hreserved.opened ⟨u.unit.statement⟩ cursor
  have hperm := (hcomplete.effects_perm v).filter (Effect.touches u.unit.statement.id)
  have hmem : u ∈ groups.flatMap Group.units := List.mem_flatMap.mpr ⟨g, hg, hu⟩
  -- of all units of the call only this one has effects on the cursor
  rw [task_units, List.flatMap_map,
    Assignment.filter_touches_units (Grouping.group_ids_nodup h) hmem,
    Assignment.filter_touches_stream (a := s.assignment x e .query) rfl hcursor hstream,
    List.perm_singleton, hhistory, effects_ofCall_filter hreserved.apart] at hperm
  exact hperm

/-! ## Results -/

/-- The result of unit `u`, one of those in group `g`, whose query has opened the cursor. -/
structure Delivers (s : Session β) (sweeping : Bool) (g : Group Connection BoundUnit)
    (u : Placed BoundUnit) (cursor : Cursor) (r : QueryResult) : Prop where
  target : r.target = u.unit.route.target
  columns : r.columns = cursor.columns
  /-- In a group with one target the rows are still in the cursor, all of them to be handed out, and
  the connection is kept for them. -/
  stream : (∀ v ∈ g.units, v.unit.route.target = u.unit.route.target) →
    r = .stream (.ofCursor u.unit.route.target u.unit.statement.id cursor g.connection) ∧
      r.held = [g.connection] ∧
      ∃ state, s.cursorOf r = some (⟨u.unit.statement⟩, state) ∧
        (state = cursor ∨ sweeping = true ∧ state = cursor.close) ∧
        (r.collect state).1 =
          (Buffer.readAll state).1.mapError (cursorError u.unit.route.target)
  /-- In a group with several they were all read, and are handed out without the cursor. -/
  memory : (¬ ∀ v ∈ g.units, v.unit.route.target = u.unit.route.target) →
    ∃ rows, (Buffer.readAll cursor).1 = .ok rows ∧
      r = .memory (.ofRows u.unit.route.target cursor.columns rows) ∧
      r.held = [] ∧ ∀ c, (r.collect c).1 = .ok rows

theorem delivers_of_result {g : Group Connection BoundUnit} {u : Placed BoundUnit}
    {cursor : Cursor} {r : QueryResult}
    (h : s.Grouped e groups w) (hg : g ∈ groups) (hu : u ∈ g.units) (hr : r.Of u.unit cursor)
    (hopen : u.unit.mode = .stream →
      ∃ c, OpenCursor.Tended sweeping { handle := ⟨u.unit.statement⟩, cursor } c ∧
        s'.world.openAt u.unit.statement.id = [c]) : s'.Delivers sweeping g u cursor r := by
  rcases Grouping.bound_of_mem h hg hu with ⟨-, hconnection, hmode, -⟩
  have hone := Grouping.mode_eq_stream h hg hu
  rw [← hmode] at hone
  cases hr with
  | stream hm =>
      refine ⟨rfl, rfl, fun _ => ⟨by rw [hconnection], by rw [← hconnection]; rfl, ?_⟩,
        fun hseveral => ?_⟩
      · rcases hopen hm with ⟨c, htended, hat⟩
        refine ⟨c.cursor, ?_, htended.cursor, QueryResult.collect_stream rfl _⟩
        rcases c with ⟨handle, state⟩
        have hhandle : handle = ⟨u.unit.statement⟩ := htended.handle
        subst hhandle
        exact cursorOf_of_openAt rfl hat
      · exact absurd (hone.mp hm) hseveral
  | @memory rows hm hrows =>
      refine ⟨rfl, rfl, fun hsame => ?_,
        fun _ => ⟨rows, hrows, rfl, rfl, fun c => QueryResult.collect_memory _ c⟩⟩
      rw [hone.mpr hsame] at hm
      cases hm

/-- A result of a query that is answered, at any time before its client takes it. -/
theorem delivers_of_answered {g : Group Connection BoundUnit} {u : Placed BoundUnit}
    {cursor : Cursor} {r : QueryResult} {answer : Answer Output}
    (hrun : Run step? (Session.start threads backend executors recorders) s)
    (h : s.Grouped e groups w) (hquery : Answering s.backend groups)
    (hothers : Run (others? s.engine.calls.length sweeping) (s.open x e .query).2 s')
    (hanswer : s'.engine.answer? s.engine.calls.length = some answer)
    (hcursors : s₂.world.cursors = s'.world.cursors) (hg : g ∈ groups) (hu : u ∈ g.units)
    (hcursor : s.backend.query u.unit.statement = .answer cursor) (hr : r.Of u.unit cursor) :
    s₂.Delivers sweeping g u cursor r := by
  refine delivers_of_result h hg hu hr fun hstream => ?_
  -- the number of the statement has been kept for it from the opening of the call on
  have hturn : s.Turn (s.open x e .query).2 (.begin x .query) := turn_of_open
  rcases Grouping.group_id_bounds h hg hu with ⟨hle, hbelow⟩
  have hgiven : u.unit.statement.id < (s.open x e .query).2.world.prepared := by
    rw [open_ok x .query h]
    exact (countGroups_grown groups w).2 ▸ hbelow
  rcases ((sound_of_run hrun).reserve hturn hle hgiven).run hothers with ⟨past, hreserved, hpast⟩
  rcases exists_share hrun h hquery hpast hanswer with ⟨sh, slots, -, hhistory, v, hcomplete, -⟩
  rcases openAt_of_stream h hg hu hreserved hhistory v hcomplete hcursor hstream with
    ⟨c, htended, hat⟩
  refine ⟨c, htended, ?_⟩
  rw [World.openAt, hcursors]
  exact hat

/-- A query whose units all succeed has one result for each unit. -/
theorem yields_delivered (x : Nat) (sweeping : Bool)
    (hrun : Run step? (Session.start threads backend executors recorders) s)
    (h : s.Grouped e groups w) (hquery : Answering s.backend groups) :
    s.Yields x e .query sweeping fun r s₂ => ∃ rs, r = .results rs ∧
      rs.length = e.route.length ∧ ∀ g ∈ groups, ∀ u ∈ g.units, ∃ cursor result,
        s.backend.query u.unit.statement = .answer cursor ∧ rs[u.position]? = some result ∧
          s₂.Delivers sweeping g u cursor result := by
  apply yields_of_answered hrun h
  intro s' s₂ sh answer hothers hanswer hcursors v hanswered
  rcases hanswered.ok_of_succeeds v (task_numbered x .query h).1 (hquery.succeeds h) with
    ⟨-, slots, rfl⟩
  rcases results_of_slots (s.snapshots + 1) h hquery hanswered v with
    ⟨rs, hresponse, hlength, hresults⟩
  refine ⟨rs, hresponse, hlength, ?_⟩
  intro g hg u hu
  rcases hresults g hg u hu with ⟨cursor, r, hcursor, hr, hof⟩
  exact ⟨cursor, r, hcursor, hr,
    delivers_of_answered hrun h hquery hothers hanswer hcursors hg hu hcursor hof⟩

/-! ## Rows -/

/-- The rows that a client collects from a result. -/
def rowsOf (s : Session β) (r : QueryResult) : Except ExecutionError (List Row) :=
  (r.collect (((s.cursorOf r).map Prod.snd).getD (.ofScript [] []))).1

/-- This is what the client of a kept result reads. -/
theorem read_collect {name : String} {unit : Nat} {r : QueryResult}
    (hr : (s.results name)[unit]? = some r) :
    (s.read name unit QueryResult.collect).map Prod.fst = some (s.rowsOf r) := by
  cases hc : s.cursorOf r with
  | none => simp [read, rowsOf, hr, hc]
  | some cursor => simp [read, rowsOf, hr, hc]

/-- As long as no cursor is closed, a result has the rows that its cursor was opened with. -/
theorem Delivers.rowsOf_eq {g : Group Connection BoundUnit} {u : Placed BoundUnit}
    {cursor : Cursor} {r : QueryResult} (h : s.Delivers false g u cursor r) :
    s.rowsOf r = (Buffer.readAll cursor).1.mapError (cursorError u.unit.route.target) := by
  by_cases hone : ∀ v ∈ g.units, v.unit.route.target = u.unit.route.target
  · rcases h.stream hone with ⟨-, -, state, hstate, rfl | ⟨hswept, -⟩, hcollect⟩
    · simp only [rowsOf, hstate, Option.map_some, Option.getD_some, hcollect]
    · cases hswept
  · rcases h.memory hone with ⟨rows, hrows, -, -, hcollect⟩
    rw [rowsOf, hcollect, hrows]
    rfl

/-! ## The whole query -/

/-- A query all of whose connections, statements, cursors and reads are granted is answered with one
result for each unit of the route, at the position of the unit and out of the cursor of its
statement, whatever else the session does meanwhile but close a cursor that is being read. -/
theorem query_results {threads : Nat} {backend : Backend} {executors : List Executor}
    {recorders : Nat} (sweeping : Bool)
    (hrun : Run step? (Session.start threads backend executors recorders) s)
    (hgranted : s.Granted e)
    (hquery : ∀ groups w, s.Grouped e groups w → Answering s.backend groups) :
    ∃ groups w number s₁, s.Grouped e groups w ∧
      ((groups.flatMap Group.units).map Placed.position).Perm (List.range e.route.length) ∧
      s.open x e .query = (.ok number, s₁) ∧
      ∀ s', Run (others? number sweeping) s₁ s' →
        Inevitable (Engine.step? noteWorld) (fun e => e.isReturned number = true) s'.engine ∧
        (s'.engine.isReturned number = true →
          ∃ rs s₂, s'.conclude number = some (.results rs, s₂) ∧ rs.length = e.route.length ∧
            ∀ i unit, e.route[i]? = some unit →
              ∃ g ∈ groups, ∃ u ∈ g.units, ∃ id cursor r, u.position = i ∧ u.unit.route = unit ∧
                u.unit.statement = ⟨id, g.connection, unit, e.options⟩ ∧
                s.backend.query u.unit.statement = .answer cursor ∧
                rs[i]? = some r ∧ s₂.Delivers sweeping g u cursor r) := by
  rcases hgranted.exists_groups with ⟨groups, w, hgroups⟩
  have hperm := Grouping.group_positions_perm hgroups
  rcases yields_delivered x sweeping hrun hgroups (hquery groups w hgroups) with
    ⟨number, s₁, hopen, hyields⟩
  refine ⟨groups, w, number, s₁, hgroups, hperm, hopen, ?_⟩
  intro s' hothers
  rcases hyields s' hothers with ⟨hinevitable, hreturned⟩
  refine ⟨hinevitable, fun hr => ?_⟩
  rcases hreturned hr with ⟨_, s₂, hconclude, rs, rfl, hlength, hresults⟩
  refine ⟨rs, s₂, hconclude, hlength, ?_⟩
  intro i unit hi
  -- some group has the unit that stands there in the route
  have hlt : i < e.route.length := (List.getElem?_eq_some_iff.mp hi).1
  rcases List.mem_map.mp (hperm.symm.subset (List.mem_range.mpr hlt)) with ⟨u, hu, rfl⟩
  rcases List.mem_flatMap.mp hu with ⟨g, hg, hug⟩
  rcases Grouping.bound_of_mem hgroups hg hug with ⟨hroute, -, -, hstatement⟩
  have hunit : u.unit.route = unit := Option.some.inj (hroute.symm.trans hi)
  rcases hresults g hg u hug with ⟨cursor, r, hcursor, hr, hdelivers⟩
  exact ⟨g, hg, u, hug, u.unit.statement.id, cursor, r, rfl, hunit, hunit ▸ hstatement, hcursor,
    hr, hdelivers⟩

end Session

/-! ## An example -/

/-- Three targets on two connections: the first two share one. -/
def Executor.triple : Executor :=
  { cap := 2
    sqlType := .dql
    options := {}
    route := ["ds_0", "ds_1", "ds_2"].map fun target => ⟨target, ⟨"SELECT id", []⟩⟩
    bus := .empty }

/-- All three on one connection. -/
def Executor.packed : Executor :=
  { Executor.triple with cap := 1 }

/-- Each of them on a connection of its own. -/
def Executor.spread : Executor :=
  { Executor.triple with cap := 3 }

/-- Grants everything, and has one row for every query. -/
def Backend.willing : Backend :=
  { refusal? := fun _ => none
    sharing := .lead
    prepareError? := fun _ _ => none
    query := fun _ => .answer (.ofScript ["id"] [.row []])
    update := fun _ => .answer none
    execute := fun _ => .answer false
    closeStatementError? := fun _ => none
    closeCursorError? := fun _ => none }

namespace Session

theorem query_results_triple : ∃ (s₁ s' s₂ : Session Unit) (rs : List QueryResult),
    (Session.start 2 .willing [.triple] 0).open 0 .triple .query = (.ok 0, s₁) ∧
      Run (others? 0 false) s₁ s' ∧ s'.conclude 0 = some (.results rs, s₂) ∧ rs.length = 3 := by
  have hread : (Buffer.readAll (.ofScript ["id"] [.row []])).1 = .ok [[]] := by
    simp [Buffer.readAll, Cursor.ofScript, Cursor.read]
  have hquery (groups : List (Group Connection BoundUnit)) : Answering .willing groups :=
    fun _ _ _ _ => ⟨_, rfl, fun _ => ⟨_, Cursor.drains_calmly hread⟩⟩
  have hgranted : (Session.start 2 .willing [.triple] 0 : Session Unit).Granted .triple :=
    Grouping.granted_of_accepts {} 2 _ (fun _ _ => rfl) fun _ _ _ => rfl
  rcases query_results (s := (Session.start 2 .willing [.triple] 0 : Session Unit)) (x := 0)
    (e := .triple) false .refl hgranted (fun groups _ _ => hquery groups) with
      ⟨groups, w, number, s₁, hgroups, -, hopen', hall⟩
  have hopen := open_ok (s := Session.start 2 .willing [.triple] 0) 0 (e := .triple) .query hgroups
  rw [hopen] at hopen'
  cases hopen'
  rcases (hall _ .refl).1.exists_run with ⟨e', hmoves, hreturned⟩
  have hothers := others_of_moves 0 false hmoves
  rcases (hall _ hothers).2 hreturned with ⟨rs, s₂, hconclude, hlength, -⟩
  exact ⟨_, _, s₂, rs, hopen, hothers, hconclude, hlength⟩

end Session

end ScatterGather
