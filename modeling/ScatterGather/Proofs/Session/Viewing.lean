import ScatterGather.Proofs.Registry.Ordering
import ScatterGather.Proofs.Session.Succession

/-!
# Viewing — what a registry shows of queries that were run one after the other

The units of a query register what they open whenever a worker gets to it, so two runs of the same
queries fill a registry in different orders.  A view shows them in one order all the same: by
position, and where queries have opened something at the same position, the earlier query first.

* `Journal.visible` : the units whose handles are shown, in that order;
* `Session.ordered_entries` : a view shows their handles;
* `Journal.origin?` : the query and the position that a statement was prepared for;
* `roster` : the queries and positions of what is shown, from what opens where;
* `Session.views_ignore_schedule` : two runs in which the same opens show the same.
-/

namespace ScatterGather

/-! ## Units by position -/

/-- Where the positions are `0, 1, …` in some order there is one unit at each of them. -/
theorem exists_unit_at {α : Type} {units : List (Placed α)} {n p : Nat}
    (h : (units.map Placed.position).Perm (List.range n)) (hp : p < n) :
    ∃ u ∈ units, u.position = p ∧ units.filter (fun u => u.position == p) = [u] := by
  have hone : (units.filter fun u => u.position == p).length = 1 := by
    have hcount := List.count_eq_one_of_mem List.nodup_range (List.mem_range.mpr hp)
    rw [← h.count_eq, List.count_eq_countP, List.countP_map, List.countP_eq_length_filter] at hcount
    exact hcount
  rcases List.length_eq_one_iff.mp hone with ⟨u, hu⟩
  have hmem : u ∈ units.filter fun u => u.position == p := hu ▸ List.mem_singleton_self u
  rcases List.mem_filter.mp hmem with ⟨hunit, hposition⟩
  exact ⟨u, hunit, by simpa using hposition, hu⟩

/-- The units that a view of registry `x` shows, as far as positions go below `n`. -/
def Journal.visible (j : Journal) (b : Backend) (x n : Nat) : List (Placed BoundUnit) :=
  (List.range n).flatMap fun p => (j.queries x).flatMap fun q =>
    (q.1.units.filter fun u => u.position == p).filter fun u => b.opens u.unit.statement

/-- The units of the route of a query are those that it has groups for. -/
theorem Journal.Tells.positions_perm {β : Type} {s : Session β} {j : Journal} {threads k : Nat}
    {o : Opened} (h : j.Tells threads s) (ho : j.calls[k]? = some o) :
    (o.units.map Placed.position).Perm (List.range o.executor.route.length) := by
  rcases h.grouped o (List.mem_of_getElem? ho) with ⟨w, w', hg⟩
  exact Grouping.group_positions_perm hg

namespace Session

variable {β ι : Type} {s : Session β} {j : Journal} {threads x n : Nat}
  {f : Effect → Option (Tracked ι)} {entry : Placed BoundUnit → Tracked ι}

/-- Of the entries of a query at a position there is the one of the unit there, if it has opened
something. -/
theorem filter_entries {k p : Nat} {o : Opened} (h : j.Tells threads s)
    (hfree : s.isFree x = true) (hquery : (o, k) ∈ j.queries x) (hunhindered : o.Unhindered s.backend)
    (hf : o.assignment.Enters s.backend x f entry) (hentry : ∀ u, (entry u).position = u.position)
    (hpositions : (o.units.map Placed.position).Perm (List.range n)) (hp : p < n) :
    ((History.effects (History.ofCall k j.past)).filterMap f).filter (fun t => t.position == p) =
      ((o.units.filter fun u => u.position == p).filter
        fun u => s.backend.opens u.unit.statement).map entry := by
  rcases Journal.mem_queries.mp hquery with ⟨ho, hown⟩
  have hreturned := isReturned_of_isFree h hfree ho hown
  have hperm := (h.entries_of_returned ho hf hunhindered hreturned).filter
    fun t => t.position == p
  -- a query of the executor tracks whatever it opens
  have htracks : o.assignment.tracks s.backend x = fun u => s.backend.opens u.unit.statement := by
    funext u
    have hx : o.assignment.registry = x ∧ o.assignment.kind = .query := of_decide_eq_true hown
    simp [Assignment.tracks, hx]
  have hkeys : ((fun t => t.position == p) ∘ entry : Placed BoundUnit → Bool) =
      fun u => u.position == p := by
    funext u
    simp [hentry]
  rw [htracks, List.filter_map, hkeys, List.filter_comm] at hperm
  -- there is no other order of one entry or none
  rcases exists_unit_at hpositions hp with ⟨u, -, -, hunit⟩
  rw [hunit] at hperm ⊢
  cases hopens : s.backend.opens u.unit.statement with
  | true =>
      simp only [List.filter_cons, hopens, List.filter_nil, if_true, List.map_cons,
        List.map_nil] at hperm ⊢
      exact List.perm_singleton.mp hperm
  | false =>
      simp only [List.filter_cons, hopens, List.filter_nil, Bool.false_eq_true, if_false,
        List.map_nil] at hperm ⊢
      exact hperm.eq_nil

/-- A view shows the units that have opened something, in the order of their positions and at each
position in the order of the queries. -/
theorem ordered_entries (h : j.Tells threads s) (hturn : s.InTurn x j)
    (hfree : s.isFree x = true) (hqueries : ∀ q ∈ j.queries x, q.1.Unhindered s.backend)
    (hf : ∀ a, Assignment.Enters a s.backend x f entry)
    (hentry : ∀ u, (entry u).position = u.position)
    (hpositions : ∀ q ∈ j.queries x, (q.1.units.map Placed.position).Perm (List.range n)) :
    Registry.ordered ((History.effects j.past).filterMap f) =
      (j.visible s.backend x n).map fun u => (entry u).handle := by
  have hsplit := entries_in_turn h hturn hfree hqueries hf
  have hbelow : ∀ t ∈ (History.effects j.past).filterMap f, t.position < n := by
    intro t ht
    rw [hsplit] at ht
    rcases List.mem_flatMap.mp ht with ⟨q, hq, ht⟩
    rcases Journal.mem_queries.mp hq with ⟨ho, hown⟩
    have hreturned := isReturned_of_isFree h hfree ho hown
    have hperm := h.entries_of_returned ho (hf _) (hqueries q hq) hreturned
    rcases List.mem_map.mp (hperm.subset ht) with ⟨u, hu, rfl⟩
    have hposition := List.mem_map_of_mem (f := Placed.position) (List.mem_of_mem_filter hu)
    rw [hentry]
    exact List.mem_range.mp ((hpositions q hq).subset hposition)
  rw [Registry.ordered_eq_flatMap hbelow, hsplit, Journal.visible, List.map_flatMap]
  refine List.flatMap_congr fun p hp => ?_
  rw [List.filter_flatMap, List.map_flatMap, List.map_flatMap]
  refine List.flatMap_congr fun q hq => ?_
  rw [filter_entries h hfree hq (hqueries q hq) (hf _) hentry (hpositions q hq)
    (List.mem_range.mp hp), List.map_map]
  rfl

end Session

/-! ## Origins -/

/-- The statements that were prepared for the queries of executor `x`, each with the number of its
query among them and its position. -/
def Journal.origins (j : Journal) (x : Nat) : List (Statement × (Nat × Nat)) :=
  (j.queries x).zipIdx.flatMap fun q => q.1.1.units.map fun u =>
    (u.unit.statement, (q.2, u.position))

def Journal.origin? (j : Journal) (x : Nat) (statement : Statement) : Option (Nat × Nat) :=
  (j.origins x).lookup statement

theorem lookup_of_mem {κ ν : Type} [DecidableEq κ] {entries : List (κ × ν)} {key : κ} {value : ν}
    (distinct : (entries.map Prod.fst).Nodup) (h : (key, value) ∈ entries) :
    entries.lookup key = some value := by
  rcases List.append_of_mem h with ⟨front, back, rfl⟩
  refine List.lookup_eq_some_iff.mpr ⟨front, back, rfl, ?_⟩
  intro p hp
  rw [List.map_append, List.map_cons, List.nodup_middle, List.nodup_cons] at distinct
  have hkey : p.1 ∈ front.map Prod.fst := List.mem_map_of_mem hp
  have hne : key ≠ p.1 := fun heq => distinct.1 (List.mem_append_left _ (heq ▸ hkey))
  simpa using hne

namespace Journal.Tells

variable {β : Type} {s : Session β} {j : Journal} {threads x : Nat}

/-- Every statement was prepared for one unit of one query. -/
theorem nodup_origins (h : j.Tells threads s) : ((j.origins x).map Prod.fst).Nodup := by
  have hstatements : (j.units.map fun u => u.unit.statement).Nodup := by
    have hids := h.statements.nodup List.nodup_range
    have hmap : (j.units.map fun u => u.unit.statement.id) =
        (j.units.map fun u => u.unit.statement).map Statement.id := by
      rw [List.map_map]
      rfl
    rw [hmap] at hids
    exact hids.of_map
  -- the statements of the queries are among those of all calls, in the same order
  have heq : (j.origins x).map Prod.fst =
      ((j.queries x).flatMap fun q => q.1.units).map fun u => u.unit.statement := by
    conv_rhs => rw [← List.zipIdx_map_fst 0 (j.queries x), List.flatMap_map]
    rw [origins, List.map_flatMap, List.map_flatMap]
    refine List.flatMap_congr fun q _ => ?_
    rw [List.map_map]
    rfl
  have hsub : ((j.queries x).flatMap fun q => q.1.units).Sublist j.units := by
    have hcalls : j.units = j.calls.zipIdx.flatMap fun q => q.1.units := by
      conv_lhs => rw [units, ← List.zipIdx_map_fst 0 j.calls, List.flatMap_map]
    rw [hcalls]
    exact List.filter_sublist.flatMap _
  rw [heq]
  exact (hsub.map _).nodup hstatements

/-- The origin of the statement of a unit. -/
theorem origin?_eq (h : j.Tells threads s) {i : Nat} {q : Opened × Nat} {u : Placed BoundUnit}
    (hq : (j.queries x)[i]? = some q) (hu : u ∈ q.1.units) :
    j.origin? x u.unit.statement = some (i, u.position) :=
  lookup_of_mem h.nodup_origins (List.mem_flatMap.mpr
    ⟨(q, i), List.mem_zipIdx_iff_getElem?.mpr hq, List.mem_map_of_mem hu⟩)

end Journal.Tells

/-! ## Views -/

/-- The query and the position of each unit that opens something, for so many queries of a route
with `n` units: by position, and at each position by query. -/
def roster (n queries : Nat) (opens : Nat → Nat → Bool) : List (Nat × Nat) :=
  (List.range n).flatMap fun p => ((List.range queries).filter fun i => opens i p).map fun i => (i, p)

theorem mem_roster {n queries : Nat} {opens : Nat → Nat → Bool} {i p : Nat} :
    (i, p) ∈ roster n queries opens ↔ i < queries ∧ p < n ∧ opens i p = true := by
  simp only [roster, List.mem_flatMap, List.mem_map, List.mem_filter, List.mem_range,
    Prod.mk.injEq]
  constructor
  · rintro ⟨p, hp, i, ⟨hi, hopens⟩, rfl, rfl⟩
    exact ⟨hi, hp, hopens⟩
  · rintro ⟨hi, hp, hopens⟩
    exact ⟨p, hp, i, ⟨hi, hopens⟩, rfl, rfl⟩

theorem pairwise_roster (n queries : Nat) (opens : Nat → Nat → Bool) :
    (roster n queries opens).Pairwise fun a b => a.2 < b.2 ∨ a.2 = b.2 ∧ a.1 < b.1 := by
  refine List.pairwise_flatMap.mpr ⟨?_, ?_⟩
  · intro p _
    rw [List.pairwise_map]
    exact (List.pairwise_lt_range.filter _).imp fun hlt => .inr ⟨rfl, hlt⟩
  · refine List.pairwise_lt_range.imp fun hlt => ?_
    intro a ha b hb
    rcases List.mem_map.mp ha with ⟨i, -, rfl⟩
    rcases List.mem_map.mp hb with ⟨i', -, rfl⟩
    exact .inl hlt

namespace Session

variable {β : Type} {s s' : Session β} {j j' : Journal} {threads threads' x queries : Nat}
  {backend backend' : Backend} {executors executors' : List Executor}
  {recorders recorders' : Nat} {e : Executor} {opens : Nat → Nat → Bool}

/-- A session that began with nothing registered and in which executor `x` has run so many queries,
one after the other and with nobody closing anything.  All their units have run, and which of them
have opened something is as given. -/
structure Succession (threads : Nat) (backend : Backend) (executors : List Executor)
    (recorders x : Nat) (e : Executor) (queries : Nat) (opens : Nat → Nat → Bool) (s : Session β)
    (j : Journal) : Prop where
  run : Run (successive? x) (start threads backend executors recorders, .empty) (s, j)
  executor : executors[x]? = some e
  unswept : ∀ p ∈ s.sweeps, p.1 ≠ x
  isFree : s.isFree x = true
  queries : (j.queries x).length = queries
  unhindered : ∀ q ∈ j.queries x, q.1.Unhindered backend
  opens : ∀ i q, (j.queries x)[i]? = some q → ∀ u ∈ q.1.units,
    backend.opens u.unit.statement = opens i u.position

namespace Succession

/-- The units of each query are at the positions of the route. -/
theorem positions (h : Succession threads backend executors recorders x e queries opens s j) :
    ∀ q ∈ j.queries x, (q.1.units.map Placed.position).Perm (List.range e.route.length) := by
  rintro ⟨o, k⟩ hq
  rcases Journal.mem_queries.mp hq with ⟨ho, hown⟩
  have hrun := journaled_of_successive h.run
  have htells := tells_of_run hrun
  have hregistry : o.assignment.registry = x := (of_decide_eq_true hown).1
  have hexecutor := htells.executor o (List.mem_of_getElem? ho)
  rw [executors_of_run (run_of_journaled hrun), hregistry] at hexecutor
  have hsame : o.executor = e := Option.some.inj (hexecutor.symm.trans h.executor)
  exact hsame ▸ htells.positions_perm ho

/-- The origins of the units that are shown do not depend on the session. -/
theorem origins_visible
    (h : Succession threads backend executors recorders x e queries opens s j) :
    (j.visible backend x e.route.length).map (fun u => j.origin? x u.unit.statement) =
      (roster e.route.length queries opens).map some := by
  have htells := tells_of_run (journaled_of_successive h.run)
  rw [Journal.visible, roster, List.map_flatMap, List.map_flatMap]
  refine List.flatMap_congr fun p hp => ?_
  -- what the query with number `i` shows at position `p`
  have hquery : ∀ q ∈ (j.queries x).zipIdx,
      ((q.1.1.units.filter fun u => u.position == p).filter
        fun u => backend.opens u.unit.statement).map (fun u => j.origin? x u.unit.statement) =
      if opens q.2 p then [some (q.2, p)] else [] := by
    rintro ⟨q, i⟩ hq
    have hi : (j.queries x)[i]? = some q := List.mem_zipIdx_iff_getElem?.mp hq
    rcases exists_unit_at (h.positions q (List.mem_of_getElem? hi)) (List.mem_range.mp hp) with
      ⟨u, hu, rfl, hunit⟩
    have hopens := h.opens i q hi u hu
    have horigin := htells.origin?_eq hi hu
    rw [hunit]
    cases hshown : opens i u.position <;> simp [hopens, hshown, horigin]
  calc
    ((j.queries x).flatMap fun q => (q.1.units.filter fun u => u.position == p).filter
        fun u => backend.opens u.unit.statement).map (fun u => j.origin? x u.unit.statement)
        = (j.queries x).zipIdx.flatMap fun q =>
            ((q.1.1.units.filter fun u => u.position == p).filter
              fun u => backend.opens u.unit.statement).map
                fun u => j.origin? x u.unit.statement := by
          conv_lhs => rw [← List.zipIdx_map_fst 0 (j.queries x), List.flatMap_map, List.map_flatMap]
    _ = (j.queries x).zipIdx.flatMap fun q => if opens q.2 p then [some (q.2, p)] else [] :=
          List.flatMap_congr hquery
    _ = (List.range queries).flatMap fun i => if opens i p then [some (i, p)] else [] := by
          rw [List.range_eq_range', ← h.queries, ← List.zipIdx_map_snd, List.flatMap_map]
    _ = ((List.range queries).filter fun i => opens i p).flatMap
          fun i => if opens i p then [some (i, p)] else [] :=
          (Partition.flatMap_filter fun i _ hi => by simp [hi]).symm
    _ = (((List.range queries).filter fun i => opens i p).map fun i => (i, p)).map some := by
          rw [List.map_map, ← List.flatMap_pure_eq_map]
          refine List.flatMap_congr fun i hi => ?_
          simp [(List.mem_filter.mp hi).2]

/-- The views show what is on the roster. -/
theorem views (h : Succession threads backend executors recorders x e queries opens s j) :
    (s.registry x).openStatements.map (j.origin? x) =
        (roster e.route.length queries opens).map some ∧
      (s.registry x).openCursors.map (fun cursor => j.origin? x cursor.statement) =
        (roster e.route.length queries opens).map some := by
  have hrun := journaled_of_successive h.run
  have htells := tells_of_run hrun
  have hbackend : s.backend = backend := backend_of_run (run_of_journaled hrun)
  have hx : x < executors.length := (List.getElem?_eq_some_iff.mp h.executor).1
  have hturn := inTurn_of_run h.run
  have hunhindered : ∀ q ∈ j.queries x, q.1.Unhindered s.backend := hbackend ▸ h.unhindered
  have hregistry : s.registry x =
      ⟨(History.effects j.past).filterMap (Effect.statement? x),
        (History.effects j.past).filterMap (Effect.cursor? x)⟩ := by
    rw [registry, unswept_of_run hx hrun h.unswept, Option.getD_some]
  rw [hregistry, Registry.openStatements, Registry.openCursors,
    ordered_entries htells hturn h.isFree hunhindered (fun a => a.enters_statements s.backend x)
      (fun _ => rfl) h.positions,
    ordered_entries htells hturn h.isFree hunhindered (fun a => a.enters_cursors s.backend x)
      (fun _ => rfl) h.positions, hbackend, List.map_map, List.map_map]
  exact ⟨h.origins_visible, h.origins_visible⟩

end Succession

/-- Two sessions in which an executor has run so many queries, one after the other, show the same if
the same units have opened something, whatever else they differ in: the number of workers, the turns
that these took, what went on in between.  They show each handle once, by position, and at each
position in the order of the queries. -/
theorem views_ignore_schedule
    (h : Succession threads backend executors recorders x e queries opens s j)
    (h' : Succession threads' backend' executors' recorders' x e queries opens s' j') :
    (s.registry x).openStatements.map (j.origin? x) =
        (s'.registry x).openStatements.map (j'.origin? x) ∧
      (s.registry x).openCursors.map (fun cursor => j.origin? x cursor.statement) =
        (s'.registry x).openCursors.map (fun cursor => j'.origin? x cursor.statement) ∧
      ∃ shown : List (Nat × Nat),
        (s.registry x).openStatements.map (j.origin? x) = shown.map some ∧
        (s.registry x).openCursors.map (fun cursor => j.origin? x cursor.statement) =
          shown.map some ∧
        shown.Pairwise (fun a b => a.2 < b.2 ∨ a.2 = b.2 ∧ a.1 < b.1) ∧
        ∀ i p, (i, p) ∈ shown ↔ i < queries ∧ p < e.route.length ∧ opens i p = true := by
  rcases h.views with ⟨hstatements, hcursors⟩
  rcases h'.views with ⟨hstatements', hcursors'⟩
  refine ⟨hstatements.trans hstatements'.symm, hcursors.trans hcursors'.symm,
    roster e.route.length queries opens, hstatements, hcursors, pairwise_roster .., ?_⟩
  intro i p
  exact mem_roster

end Session

/-! ## An example -/

/-- Two targets, each on a connection of its own. -/
def Executor.double : Executor :=
  { Executor.triple with route := ["ds_0", "ds_1"].map fun target => ⟨target, ⟨"SELECT id", []⟩⟩ }

/-- One row for every query but that of the second statement, which is not answered. -/
def Backend.hesitant : Backend :=
  { Backend.willing with
    query := fun s =>
      if s.id = 1 then .failure (.ofMessage "no answer") else .answer (.ofScript ["id"] [.row []]) }

namespace Session

/-- Two queries, one after the other, in each of which the workers take turns as given. -/
def doubleSteps (turns : List (List Nat)) : List (Step Unit) :=
  .setRethrow false :: turns.zipIdx.flatMap fun (workers, call) =>
    .begin 0 .query :: List.replicate 5 (.engine (.caller call)) ++
      workers.map (fun w => .engine (.worker w)) ++ List.replicate 2 (.engine (.caller call))

/-- Of the units of two queries all but the second of the first query have opened something. -/
theorem exists_succession_double (turns : List (List Nat)) (positions : List Nat)
    (h : ∃ r ∈ (doubleSteps turns).foldlM (successive? 0) (start 2 .hesitant [.double] 0, .empty),
      r.1.sweeps.length = 0 ∧ r.1.isFree 0 = true ∧ (r.2.queries 0).length = 2 ∧
      (∀ q ∈ r.2.queries 0, q.1.policy = .bestEffort ∧
        ∀ u ∈ q.1.units, ¬ (q.1.assignment.work .hesitant u).Panics) ∧
      (∀ q ∈ (r.2.queries 0).zipIdx, ∀ u ∈ q.1.1.units,
        Backend.hesitant.opens u.unit.statement = !(q.2 == 0 && u.position == 1)) ∧
      (r.1.registry 0).statements.map Tracked.position = positions) :
    ∃ (s : Session Unit) (j : Journal), Succession 2 .hesitant [.double] 0 0 .double 2
        (fun i p => !(i == 0 && p == 1)) s j ∧
      (s.registry 0).statements.map Tracked.position = positions := by
  rcases h with ⟨⟨s, j⟩, hmoves, hsweeps, hfree, hcount, hqueries, hopens, hpositions⟩
  have hnone : s.sweeps = [] := List.eq_nil_of_length_eq_zero hsweeps
  refine ⟨s, j, ⟨Run.of_moves hmoves, rfl, by simp [hnone], hfree, hcount, ?_, ?_⟩, hpositions⟩
  · exact fun q hq => ⟨(hqueries q hq).2, .inl (hqueries q hq).1⟩
  · exact fun i q hq => hopens (q, i) (List.mem_zipIdx_iff_getElem?.mpr hq)

/-- In one session a single worker runs everything, and in the other the unit at the second position
of the second query registers before that at the first. -/
theorem views_ignore_schedule_double : ∃ (s s' : Session Unit) (j j' : Journal),
    Succession 2 .hesitant [.double] 0 0 .double 2 (fun i p => !(i == 0 && p == 1)) s j ∧
      Succession 2 .hesitant [.double] 0 0 .double 2 (fun i p => !(i == 0 && p == 1)) s' j' ∧
      (s.registry 0).statements.map Tracked.position = [0, 0, 1] ∧
      (s'.registry 0).statements.map Tracked.position = [0, 1, 0] ∧
      (s.registry 0).openStatements.map (j.origin? 0) =
        (s'.registry 0).openStatements.map (j'.origin? 0) ∧
      (s.registry 0).openCursors.map (fun cursor => j.origin? 0 cursor.statement) =
        (s'.registry 0).openCursors.map (fun cursor => j'.origin? 0 cursor.statement) := by
  rcases exists_succession_double [List.replicate 21 0, List.replicate 24 0] [0, 0, 1]
    (by decide +kernel) with ⟨s, j, h, hpositions⟩
  rcases exists_succession_double [0 :: List.replicate 9 1 ++ List.replicate 11 0,
    0 :: List.replicate 12 1 ++ List.replicate 11 0] [0, 1, 0] (by decide +kernel) with
      ⟨s', j', h', hpositions'⟩
  have hviews := views_ignore_schedule h h'
  exact ⟨s, s', j, j', h, h', hpositions, hpositions', hviews.1, hviews.2.1⟩

end Session

end ScatterGather
