import ScatterGather.Proofs.Session.Replies

/-!
# Capping — the cap on connections never shows in a response

A cap decides how the units of a route are grouped, and with the workers and their turns it decides
when they run and whether their rows are streamed.  Where the calls of a unit come out alike
wherever it runs, none of that shows: a response is that of the route.

* `Session.outcomes_perm` : the units of a call come out as the units of the route;
* `Session.yields_updated`, `Session.yields_executed`, `Session.yields_viewed` : what one session
  answers;
* `Session.answers_ignore_cap` : so two sessions with one route answer alike;
* `Session.answers_ignore_cap_triple` : as they do on three targets with two connections or three.
-/

namespace ScatterGather

namespace Session

variable {β : Type} {s : Session β} {x : Nat} {e : Executor} {kind : EntryPoint}
  {groups : List (Group Connection BoundUnit)} {w : World} {replies : Replies}
  {threads : Nat} {backend : Backend} {executors : List Executor} {recorders : Nat}

theorem Yields.mono {sweeping : Bool} {P Q : Response → Session β → Prop}
    (h : s.Yields x e kind sweeping P) (hPQ : ∀ r s₂, P r s₂ → Q r s₂) :
    s.Yields x e kind sweeping Q := by
  rcases h with ⟨number, s₁, hopen, hall⟩
  refine ⟨number, s₁, hopen, fun s' hothers => ⟨(hall s' hothers).1, fun hreturned => ?_⟩⟩
  rcases (hall s' hothers).2 hreturned with ⟨r, s₂, hconclude, hP⟩
  exact ⟨r, s₂, hconclude, hPQ r s₂ hP⟩

/-- The statement of a unit is that of its part of the route. -/
theorem statement_of_mem {g : Group Connection BoundUnit} {u : Placed BoundUnit}
    (h : s.Grouped e groups w) (hg : g ∈ groups) (hu : u ∈ g.units) :
    u.unit.statement.route = u.unit.route ∧ u.unit.statement.route ∈ e.route := by
  rcases Grouping.bound_of_mem h hg hu with ⟨hroute, -, -, hstatement⟩
  have hsame : u.unit.statement.route = u.unit.route := by rw [hstatement]
  exact ⟨hsame, hsame ▸ List.mem_of_getElem? hroute⟩

/-! ## Updates and executions -/

section

variable {α : Type} {reply : RouteUnit → Reply α} {output : α → Output}

/-- Where a unit comes out as its reply tells, the units of a call come out as those of its route,
in the order of the groups. -/
theorem outcomes_perm (h : s.Grouped e groups w)
    (hwork : ∀ g ∈ groups, ∀ u ∈ g.units, ((s.assignment x e kind).work s.backend u).outcome =
      (reply u.unit.route).outcome output u.position u.unit.route) :
    ((s.task x e kind groups).units.map fun u => (u.position, u.outcome)).Perm
      (Replies.outcomes reply output e.route) := by
  have hsame : (s.task x e kind groups).units.map (fun u => (u.position, u.outcome)) =
      ((groups.flatMap Group.units).map fun u => (u.unit.route, u.position)).map
        fun p => (p.2, (reply p.1).outcome output p.2 p.1) := by
    rw [task_units, List.map_map, List.map_map]
    apply List.map_congr_left
    intro u hu
    rcases List.mem_flatMap.mp hu with ⟨g, hg, hug⟩
    exact Prod.ext rfl (hwork g hg u hug)
  rw [hsame]
  exact (Grouping.group_units_perm h).map _

/-- A call whose units come out as their replies tell has the answer of its route. -/
theorem yields_replied (x : Nat) (output : α → Output) (sweeping : Bool)
    (hrun : Run step? (Session.start threads backend executors recorders) s)
    (hgranted : s.Granted e)
    (hwork : ∀ groups w, s.Grouped e groups w → ∀ g ∈ groups, ∀ u ∈ g.units,
      ((s.assignment x e kind).work s.backend u).outcome =
        (reply u.unit.route).outcome output u.position u.unit.route)
    (calm : ∀ u ∈ e.route, reply u ≠ .panic)
    (hpolicy : s.policy = .bestEffort ∨ ∀ u ∈ e.route, ∀ err, reply u ≠ .failure err) :
    s.Yields x e kind sweeping fun r _ =>
      r = .ofAnswer kind (s.snapshots + 1) (Replies.answer reply output e.route) := by
  rcases hgranted.exists_groups with ⟨groups, w, h⟩
  have hperm := outcomes_perm h (hwork groups w h)
  -- what a unit comes to, its reply tells
  have hunit : ∀ u ∈ (s.task x e kind groups).units, ∃ unit ∈ e.route,
      u.outcome = (reply unit).outcome output u.position unit := by
    intro u hu
    rcases Replies.exists_of_mem hperm hu with ⟨unit, hunit, houtcome⟩
    exact ⟨unit, List.mem_of_getElem? hunit, houtcome⟩
  refine (yields_judged x kind sweeping hrun h ?_ (hpolicy.imp_right ?_)).mono ?_
  · intro u hu hpanics
    rcases hunit u hu with ⟨unit, hmem, houtcome⟩
    exact calm unit hmem (Reply.outcome_eq_panic_iff.mp (houtcome.symm.trans hpanics))
  · rintro hnone u hu ⟨err, hfails⟩
    rcases hunit u hu with ⟨unit, hmem, houtcome⟩
    rcases Reply.outcome_eq_failure_iff.mp (houtcome.symm.trans hfails) with ⟨f, hreply, -⟩
    exact hnone unit hmem f hreply
  · rintro r s₂ ⟨answer, rfl, hjudged⟩
    rw [Replies.eq_answer_of_judged hperm hjudged]

end

theorem yields_updated (x : Nat) (sweeping : Bool)
    (hrun : Run step? (Session.start threads backend executors recorders) s)
    (hgranted : s.Granted e) (hfollows : s.backend.Follows replies e.route)
    (calm : ∀ u ∈ e.route, replies.update u ≠ .panic)
    (hpolicy : s.policy = .bestEffort ∨ ∀ u ∈ e.route, ∀ err, replies.update u ≠ .failure err) :
    s.Yields x e .update sweeping fun r _ => r = replies.updated e.route := by
  refine (yields_replied x .count sweeping hrun hgranted ?_ calm hpolicy).mono ?_
  · intro groups w h g hg u hu
    rcases statement_of_mem h hg hu with ⟨hsame, hmem⟩
    rw [← hsame, ← hfollows.update _ hmem, hsame, ← Assignment.simple_outcome]
    rfl
  · rintro r s₂ rfl
    exact replies.ofAnswer_update _ _

theorem yields_executed (x : Nat) (sweeping : Bool)
    (hrun : Run step? (Session.start threads backend executors recorders) s)
    (hgranted : s.Granted e) (hfollows : s.backend.Follows replies e.route)
    (calm : ∀ u ∈ e.route, replies.execute u ≠ .panic)
    (hpolicy : s.policy = .bestEffort ∨ ∀ u ∈ e.route, ∀ err, replies.execute u ≠ .failure err) :
    s.Yields x e .execute sweeping fun r _ => r = replies.executed e.route := by
  refine (yields_replied x .flag sweeping hrun hgranted ?_ calm hpolicy).mono ?_
  · intro groups w h g hg u hu
    rcases statement_of_mem h hg hu with ⟨hsame, hmem⟩
    rw [← hsame, ← hfollows.execute _ hmem, hsame, ← Assignment.simple_outcome]
    rfl
  · rintro r s₂ rfl
    exact replies.ofAnswer_execute _ _

/-! ## Queries -/

/-- What a client sees of a result. -/
def view (s : Session β) (r : QueryResult) : View :=
  ⟨r.target, r.columns, s.rowsOf r⟩

theorem Delivers.view_eq {g : Group Connection BoundUnit} {u : Placed BoundUnit} {cursor : Cursor}
    {r : QueryResult} (h : s.Delivers false g u cursor r)
    (hcursor : replies.query u.unit.route = .answer cursor) :
    some (s.view r) = replies.view? u.unit.route := by
  simp only [view, h.target, h.columns, h.rowsOf_eq, Replies.view?, hcursor]

/-- As long as no cursor is closed, a query whose cursors open and can be read shows the rows of its
route, streamed or not. -/
theorem yields_viewed (x : Nat)
    (hrun : Run step? (Session.start threads backend executors recorders) s)
    (hgranted : s.Granted e) (hfollows : s.backend.Follows replies e.route)
    (hquery : ∀ u ∈ e.route, ∃ cursor rows, replies.query u = .answer cursor ∧
      cursor.Drains (replies.drainPanic? u) rows) :
    s.Yields x e .query false fun r s₂ => ∃ rs, r = .results rs ∧
      (rs.map fun r => some (s₂.view r)) = e.route.map replies.view? := by
  rcases hgranted.exists_groups with ⟨groups, w, h⟩
  have hreply : ∀ g ∈ groups, ∀ u ∈ g.units, ∃ cursor rows,
      s.backend.query u.unit.statement = .answer cursor ∧
        replies.query u.unit.route = .answer cursor ∧
        cursor.Drains (s.backend.drainPanic? u.unit.statement) rows := by
    intro g hg u hu
    rcases statement_of_mem h hg hu with ⟨hsame, hmem⟩
    rcases hquery _ hmem with ⟨cursor, rows, hcursor, hrows⟩
    exact ⟨cursor, rows, (hfollows.query _ hmem).trans hcursor, hsame ▸ hcursor,
      hfollows.drainPanic? _ hmem ▸ hrows⟩
  have hanswering : Answering s.backend groups := by
    intro g hg u hu
    rcases hreply g hg u hu with ⟨cursor, rows, hcursor, -, hrows⟩
    exact ⟨cursor, hcursor, fun _ => ⟨rows, hrows⟩⟩
  refine (yields_delivered x false hrun h hanswering).mono ?_
  rintro r s₂ ⟨rs, rfl, hlength, hdelivered⟩
  refine ⟨rs, rfl, List.ext_getElem? fun i => ?_⟩
  rw [List.getElem?_map, List.getElem?_map]
  cases hi : e.route[i]? with
  | none =>
      have hle : rs.length ≤ i := hlength ▸ List.getElem?_eq_none_iff.mp hi
      rw [List.getElem?_eq_none hle]
      rfl
  | some unit =>
      -- the unit is in some group, and its result is at its place
      have hroute : (unit, i) ∈ e.route.zipIdx := List.mem_zipIdx_iff_getElem?.mpr hi
      rcases List.mem_map.mp ((Grouping.group_units_perm h).symm.subset hroute) with ⟨u, hu, heq⟩
      cases heq
      rcases List.mem_flatMap.mp hu with ⟨g, hg, hug⟩
      rcases hreply g hg u hug with ⟨cursor, rows, hcursor, hquery, -⟩
      rcases hdelivered g hg u hug with ⟨cursor', result, hcursor', hresult, hdelivers⟩
      rw [hcursor] at hcursor'
      cases hcursor'
      rw [hresult, Option.map_some, Option.map_some, hdelivers.view_eq hquery]

/-! ## Two sessions -/

/-- Two sessions may run one route with different caps on connections, with different numbers of
workers and in any order.  If all they ask for is granted, and the calls of a unit come out alike
wherever it runs, then their clients take the same responses.  Updates and executions that may fail
do so under best effort, and under any policy if none of them does; a query shows the same rows if
all its cursors can be read. -/
theorem answers_ignore_cap {γ : Type} {s' : Session γ} {e' : Executor} {threads' : Nat}
    {backend' : Backend} {executors' : List Executor} {recorders' : Nat} (x x' : Nat)
    (sweeping : Bool)
    (hrun : Run step? (Session.start threads backend executors recorders) s)
    (hrun' : Run step? (Session.start threads' backend' executors' recorders') s')
    (hroute : e'.route = e.route) (hgranted : s.Granted e) (hgranted' : s'.Granted e')
    (hfollows : s.backend.Follows replies e.route)
    (hfollows' : s'.backend.Follows replies e.route) :
    ((∀ u ∈ e.route, replies.update u ≠ .panic) →
      (s.policy = .bestEffort ∧ s'.policy = .bestEffort ∨
        ∀ u ∈ e.route, ∀ err, replies.update u ≠ .failure err) →
      s.Yields x e .update sweeping (fun r _ => r = replies.updated e.route) ∧
        s'.Yields x' e' .update sweeping (fun r _ => r = replies.updated e.route)) ∧
    ((∀ u ∈ e.route, replies.execute u ≠ .panic) →
      (s.policy = .bestEffort ∧ s'.policy = .bestEffort ∨
        ∀ u ∈ e.route, ∀ err, replies.execute u ≠ .failure err) →
      s.Yields x e .execute sweeping (fun r _ => r = replies.executed e.route) ∧
        s'.Yields x' e' .execute sweeping (fun r _ => r = replies.executed e.route)) ∧
    ((∀ u ∈ e.route, ∀ err, replies.execute u ≠ .failure err) → replies.executed e.route =
      .flag ((e.route.head?.bind fun u => (replies.execute u).answer?).getD false)) ∧
    ((∀ u ∈ e.route, ∃ cursor rows, replies.query u = .answer cursor ∧
        cursor.Drains (replies.drainPanic? u) rows) →
      s.Yields x e .query false (fun r s₂ => ∃ rs, r = .results rs ∧
        (rs.map fun r => some (s₂.view r)) = e.route.map replies.view?) ∧
      s'.Yields x' e' .query false (fun r s₂ => ∃ rs, r = .results rs ∧
        (rs.map fun r => some (s₂.view r)) = e.route.map replies.view?)) := by
  rw [← hroute] at hfollows'
  refine ⟨fun calm hpolicy => ⟨?_, ?_⟩, fun calm hpolicy => ⟨?_, ?_⟩, fun hnone => ?_,
    fun hquery => ⟨?_, ?_⟩⟩
  · exact yields_updated x sweeping hrun hgranted hfollows calm (hpolicy.imp_left And.left)
  · rw [← hroute] at calm hpolicy ⊢
    exact yields_updated x' sweeping hrun' hgranted' hfollows' calm (hpolicy.imp_left And.right)
  · exact yields_executed x sweeping hrun hgranted hfollows calm (hpolicy.imp_left And.left)
  · rw [← hroute] at calm hpolicy ⊢
    exact yields_executed x' sweeping hrun' hgranted' hfollows' calm (hpolicy.imp_left And.right)
  · have hfailures : Replies.failures replies.execute e.route = [] := by
      apply Replies.failures_eq_nil
      intro u hu
      cases hreply : replies.execute u with
      | answer b => rfl
      | failure err => exact absurd hreply (hnone u hu err)
      | panic => rfl
    simp only [Replies.executed, Replies.settle, hfailures]
  · exact yields_viewed x hrun hgranted hfollows hquery
  · rw [← hroute] at hquery ⊢
    exact yields_viewed x' hrun' hgranted' hfollows' hquery

end Session

/-! ## An example -/

/-- One row for every query, and a target that cannot be written. -/
def Replies.halting : Replies :=
  { query := fun _ => .answer (.ofScript ["id"] [.row []])
    update := fun u =>
      if u.target = "ds_1" then .failure (.ofMessage "read only") else .answer (some 1)
    execute := fun u => .answer (u.target == "ds_0") }

def Backend.halting : Backend :=
  { Backend.willing with
    query := fun s => Replies.halting.query s.route
    update := fun s => Replies.halting.update s.route
    execute := fun s => Replies.halting.execute s.route }

namespace Session

/-- An executor by itself, under best effort. -/
def patient (threads : Nat) (e : Executor) : Session Unit :=
  { (Session.start threads .halting [e] 0 : Session Unit) with
    ambient := Ambient.fresh.setRethrow false }

theorem run_patient (threads : Nat) (e : Executor) :
    Run step? (Session.start threads .halting [e] 0) (patient threads e) :=
  .single (m := .setRethrow false) rfl

/-- Under a cap of two the first two targets share a connection and are read at once, and with a
connection each all of them stream. -/
theorem answers_ignore_cap_triple :
    ((patient 2 .triple).Yields 0 .triple .update true fun r _ =>
      r = .failed (.execution (.aggregate (.unit 1 "ds_1" "read only") 1))) ∧
    ((patient 1 .spread).Yields 0 .spread .update true fun r _ =>
      r = .failed (.execution (.aggregate (.unit 1 "ds_1" "read only") 1))) ∧
    ((patient 2 .triple).Yields 0 .triple .execute true fun r _ => r = .flag true) ∧
    ((patient 1 .spread).Yields 0 .spread .execute true fun r _ => r = .flag true) ∧
    ∃ views : List View, views.map View.target = ["ds_0", "ds_1", "ds_2"] ∧
      ((patient 2 .triple).Yields 0 .triple .query false fun r s₂ =>
        ∃ rs, r = .results rs ∧ rs.map s₂.view = views) ∧
      ((patient 1 .spread).Yields 0 .spread .query false fun r s₂ =>
        ∃ rs, r = .results rs ∧ rs.map s₂.view = views) := by
  have hread : (Buffer.readAll (.ofScript ["id"] [.row []])).1 = .ok [[]] := by
    simp [Buffer.readAll, Cursor.ofScript, Cursor.read]
  have hgranted : (patient 2 .triple).Granted .triple :=
    Grouping.granted_of_accepts {} 2 _ (fun _ _ => rfl) fun _ _ _ => rfl
  have hgranted' : (patient 1 .spread).Granted .spread :=
    Grouping.granted_of_accepts {} 3 _ (fun _ _ => rfl) fun _ _ _ => rfl
  have hfollows : Backend.halting.Follows .halting Executor.triple.route :=
    ⟨fun _ _ => rfl, fun _ _ => rfl, fun _ _ => rfl, fun _ _ => rfl⟩
  have hupdate : ∀ u ∈ Executor.triple.route, Replies.halting.update u ≠ .panic := by
    intro u _
    simp only [Replies.halting]
    split <;> simp
  have hroute : Executor.spread.route = Executor.triple.route := rfl
  rcases answers_ignore_cap 0 0 true (run_patient 2 .triple) (run_patient 1 .spread) hroute
    hgranted hgranted' hfollows hfollows with ⟨hupdates, hexecutions, -, hqueries⟩
  have hfailed : Replies.halting.updated Executor.triple.route =
      .failed (.execution (.aggregate (.unit 1 "ds_1" "read only") 1)) := by
    simp [Replies.updated, Replies.settle, Replies.failures, Replies.halting, Executor.triple,
      Reply.failure?, List.zipIdx, BackendError.ofMessage]
  have hflag : Replies.halting.executed Executor.triple.route = .flag true := by
    simp [Replies.executed, Replies.settle, Replies.failures, Replies.halting, Executor.triple,
      Reply.failure?, Reply.answer?]
  have hview : Replies.halting.view? = fun u => some ⟨u.target, ["id"], .ok [[]]⟩ := by
    funext u
    show some (View.mk u.target ["id"]
      ((Buffer.readAll (.ofScript ["id"] [.row []])).1.mapError _)) = _
    rw [hread]
    rfl
  have hviews {s₂ : Session Unit} {rs : List QueryResult}
      (h : (rs.map fun r => some (s₂.view r)) =
        Executor.triple.route.map Replies.halting.view?) :
      rs.map s₂.view = Executor.triple.route.map fun u => ⟨u.target, ["id"], .ok [[]]⟩ := by
    apply List.map_injective_iff.mpr (Option.some_injective _)
    rw [List.map_map, List.map_map]
    exact h.trans (by rw [hview]; rfl)
  rcases hupdates hupdate (.inl ⟨rfl, rfl⟩) with ⟨hupdated, hupdated'⟩
  have hexecute : ∀ u ∈ Executor.triple.route, Replies.halting.execute u ≠ .panic := by
    simp [Replies.halting]
  rcases hexecutions hexecute (.inl ⟨rfl, rfl⟩) with ⟨hexecuted, hexecuted'⟩
  rcases hqueries fun _ _ => ⟨_, _, rfl, Cursor.drains_calmly hread⟩ with ⟨hrows, hrows'⟩
  rw [hfailed] at hupdated hupdated'
  rw [hflag] at hexecuted hexecuted'
  refine ⟨hupdated, hupdated', hexecuted, hexecuted',
    Executor.triple.route.map fun u => ⟨u.target, ["id"], .ok [[]]⟩, ?_, ?_, ?_⟩
  · simp [Executor.triple]
  · exact hrows.mono fun r s₂ h => h.imp fun rs => And.imp_right hviews
  · exact hrows'.mono fun r s₂ h => h.imp fun rs => And.imp_right hviews

end Session

end ScatterGather
