import ScatterGather.Proofs.Session.Query

/-!
# Replies — what a route comes to where nothing but its units decides

Calls may come out alike wherever a unit runs: whatever its connection, its statement and the units
around it.  Then a route has one response to an update and one to an execution, and each of its
units has rows of its own for a query.

* `Replies` : how the calls of a unit come out, by the unit alone;
* `Backend.Follows` : a backend that answers so on a route;
* `Replies.updated`, `Replies.executed`, `Replies.view?` : the responses of a route;
* `Replies.eq_answer_of_judged` : units that are judged together have the answer of their route;
* `Replies.ofAnswer_update`, `Replies.ofAnswer_execute` : which is then merged into its response.
-/

namespace ScatterGather

/-! ## Calls -/

def Outcome.failure? {α : Type} : Outcome α → Option ExecutionError
  | .failure e => some e
  | _ => none

namespace Reply

variable {α : Type}

def answer? : Reply α → Option α
  | answer a => some a
  | _ => none

def failure? : Reply α → Option BackendError
  | failure e => some e
  | _ => none

/-- How a unit comes out whose call has this reply. -/
def outcome (output : α → Output) (position : Nat) (u : RouteUnit) : Reply α → Outcome Output
  | answer a => .value (output a)
  | failure e => .failure (.unit position u.target e.message)
  | panic => .panic

variable {reply : Reply α} {output : α → Output} {position : Nat} {u : RouteUnit}

theorem outcome_eq_value_iff {b : Output} :
    reply.outcome output position u = .value b ↔ ∃ a, reply = .answer a ∧ output a = b := by
  cases reply <;> simp [outcome]

theorem outcome_eq_failure_iff {e : ExecutionError} :
    reply.outcome output position u = .failure e ↔
      ∃ err, reply = .failure err ∧ .unit position u.target err.message = e := by
  cases reply <;> simp [outcome]

theorem outcome_eq_panic_iff : reply.outcome output position u = .panic ↔ reply = .panic := by
  cases reply <;> simp [outcome]

theorem failure?_outcome (reply : Reply α) (output : α → Output) (position : Nat) (u : RouteUnit) :
    (reply.outcome output position u).failure? =
      reply.failure?.map fun e => .unit position u.target e.message := by
  cases reply <;> rfl

end Reply

theorem Assignment.simple_outcome {α : Type} (p : Placed BoundUnit) (output : α → Output)
    (reply : Reply α) :
    (simple p output reply).2 = reply.outcome output p.position p.unit.route := by
  cases reply <;> rfl

/-- How the calls of a unit come out, whatever statement makes them. -/
structure Replies where
  query : RouteUnit → Reply Cursor
  update : RouteUnit → Reply (Option UInt64)
  execute : RouteUnit → Reply Bool
  /-- The read that panics, where the rows of the unit are read at once. -/
  drainPanic? : RouteUnit → Option Nat := fun _ => none

/-- A backend answers the statements of a route by their units alone. -/
structure Backend.Follows (b : Backend) (replies : Replies) (route : List RouteUnit) : Prop where
  query : ∀ s : Statement, s.route ∈ route → b.query s = replies.query s.route
  update : ∀ s : Statement, s.route ∈ route → b.update s = replies.update s.route
  execute : ∀ s : Statement, s.route ∈ route → b.execute s = replies.execute s.route
  drainPanic? : ∀ s : Statement, s.route ∈ route → b.drainPanic? s = replies.drainPanic? s.route

/-- What a client sees of the result of a unit. -/
structure View where
  target : String
  columns : List String
  rows : Except ExecutionError (List Row)

namespace Replies

/-! ## Responses -/

section

variable {α : Type} (reply : RouteUnit → Reply α) (route : List RouteUnit)

/-- The failures of the units, in the order of the route. -/
def failures : List ExecutionError :=
  route.zipIdx.filterMap fun (u, i) =>
    (reply u).failure?.map fun e => .unit i u.target e.message

/-- The response is the first failure with the number of all, if there are any. -/
def settle (response : Response) : Response :=
  match failures reply route with
  | [] => response
  | first :: rest => .failed (.execution (.aggregate first (rest.length + 1)))

end

/-- An update adds up what all units count. -/
def updated (replies : Replies) (route : List RouteUnit) : Response :=
  settle replies.update route <|
    match Merge.total? (route.map fun u => (replies.update u).answer?) with
    | some n => .total n
    | none => .overflow

/-- An execution has the flag of the first unit, and none without units. -/
def executed (replies : Replies) (route : List RouteUnit) : Response :=
  settle replies.execute route
    (.flag ((route.head?.bind fun u => (replies.execute u).answer?).getD false))

/-- The rows of a unit, as a query on it finds them. -/
def view? (replies : Replies) (u : RouteUnit) : Option View :=
  match replies.query u with
  | .answer cursor =>
    some ⟨u.target, cursor.columns,
      (Buffer.readAll cursor).1.mapError (cursorError u.target)⟩
  | _ => none

/-! ## Answers -/

section

variable {α : Type} {reply : RouteUnit → Reply α} {output : α → Output} {route : List RouteUnit}
  {us : List (Work Effect Output)} {given : Answer Output}

/-- The outcomes of the units of a route, in its order. -/
def outcomes (reply : RouteUnit → Reply α) (output : α → Output) (route : List RouteUnit) :
    List (Nat × Outcome Output) :=
  route.zipIdx.map fun (u, i) => (i, (reply u).outcome output i u)

/-- The answer to a call of all units of a route. -/
def answer (reply : RouteUnit → Reply α) (output : α → Output) (route : List RouteUnit) :
    Answer Output :=
  match failures reply route with
  | [] => .ok (route.map fun u => (reply u).answer?.map output)
  | first :: rest => .error (.execution (.aggregate first (rest.length + 1)))

theorem mem_outcomes {i : Nat} {o : Outcome Output} :
    (i, o) ∈ outcomes reply output route ↔
      ∃ u, route[i]? = some u ∧ o = (reply u).outcome output i u := by
  simp only [outcomes, List.mem_map, Prod.exists, Prod.mk.injEq, List.mem_zipIdx_iff_getElem?]
  constructor
  · rintro ⟨u, i, hu, rfl, rfl⟩
    exact ⟨u, hu, rfl⟩
  · rintro ⟨u, hu, rfl⟩
    exact ⟨u, i, hu, rfl, rfl⟩

theorem failures_eq_nil (h : ∀ u ∈ route, (reply u).failure? = none) :
    failures reply route = [] := by
  apply List.filterMap_eq_nil_iff.mpr
  rintro ⟨u, i⟩ hu
  have hmem : u ∈ route := List.mem_of_getElem? (List.mem_zipIdx_iff_getElem?.mp hu)
  simp [h u hmem]

/-- The failure at the lowest position is the first of all. -/
theorem failures_head {i : Nat} {u : RouteUnit} {e : BackendError} (hu : route[i]? = some u)
    (he : reply u = .failure e)
    (hlowest : ∀ (j : Nat) v f, route[j]? = some v → reply v = .failure f → i ≤ j) :
    (failures reply route).head? = some (.unit i u.target e.message) := by
  rcases List.getElem?_eq_some_iff.mp hu with ⟨hlt, hget⟩
  obtain ⟨front, back, rfl, rfl⟩ :
      ∃ front back, route = front ++ u :: back ∧ i = front.length := by
    refine ⟨route.take i, route.drop (i + 1), ?_, ?_⟩
    · rw [← hget, List.getElem_cons_drop, List.take_append_drop]
    · rw [List.length_take]
      omega
  have hsplit : (front ++ u :: back).zipIdx =
      front.zipIdx ++ (u, front.length) :: back.zipIdx (front.length + 1) := by
    rw [List.zipIdx_append, Nat.zero_add, List.zipIdx_cons]
  rw [failures, List.head?_filterMap]
  refine List.findSome?_eq_some_iff.mpr ⟨_, _, _, hsplit, by simp [he, Reply.failure?], ?_⟩
  rintro ⟨v, j⟩ hv
  -- what comes before has a lower position, so it is no failure
  have hj := List.mem_zipIdx_iff_getElem?.mp hv
  have hbefore : j < front.length := (List.getElem?_eq_some_iff.mp hj).1
  have hroute : (front ++ u :: back)[j]? = some v := by
    rw [List.getElem?_append_left hbefore]
    exact hj
  cases hreply : reply v with
  | answer a => simp [hreply, Reply.failure?]
  | panic => simp [hreply, Reply.failure?]
  | failure f =>
      have hle := hlowest j v f hroute hreply
      omega

variable (h : (us.map fun u => (u.position, u.outcome)).Perm (outcomes reply output route))

include h

/-- There is a failure for each unit that fails. -/
theorem length_failures : (failures reply route).length = us.countP fun u => u.Fails := by
  have hroute : failures reply route =
      (outcomes reply output route).filterMap fun p => p.2.failure? := by
    rw [failures, outcomes, List.filterMap_map]
    apply List.filterMap_congr
    rintro ⟨u, i⟩ -
    exact (Reply.failure?_outcome ..).symm
  calc
    (failures reply route).length
        = (us.filterMap fun u => u.outcome.failure?).length := by
          rw [hroute, ← (h.filterMap fun p => p.2.failure?).length_eq, List.filterMap_map]
          rfl
    _ = us.countP fun u => u.outcome.failure?.isSome := List.length_filterMap_eq_countP
    _ = us.countP fun u => u.Fails := by
          apply List.countP_congr
          intro u _
          cases hu : u.outcome <;> simp [Work.Fails, hu, Outcome.failure?]

/-- A unit that was run is one of the route. -/
theorem exists_of_mem {u : Work Effect Output} (hu : u ∈ us) :
    ∃ unit, route[u.position]? = some unit ∧
      u.outcome = (reply unit).outcome output u.position unit :=
  mem_outcomes.mp (h.subset (List.mem_map_of_mem hu))

/-- A unit of the route was run. -/
theorem exists_of_getElem? {i : Nat} {unit : RouteUnit} (hi : route[i]? = some unit) :
    ∃ u ∈ us, u.position = i ∧ u.outcome = (reply unit).outcome output i unit := by
  rcases List.mem_map.mp (h.symm.subset (mem_outcomes.mpr ⟨unit, hi, rfl⟩)) with ⟨u, hu, heq⟩
  rcases Prod.mk.inj heq with ⟨hposition, houtcome⟩
  exact ⟨u, hu, hposition, houtcome⟩

/-- Units that are judged together have the answer of the route, however they were grouped. -/
theorem eq_answer_of_judged (hj : Share.Judged us given) : given = answer reply output route := by
  cases hj with
  | @values slots succeed length placed =>
      -- each unit of the route has a reply that is an answer
      have hanswers : ∀ (i : Nat) (unit : RouteUnit), route[i]? = some unit →
          ∃ a, reply unit = .answer a ∧ slots[i]? = some (some (output a)) := by
        intro i unit hi
        rcases exists_of_getElem? h hi with ⟨u, hu, rfl, houtcome⟩
        rcases placed u hu with ⟨b, hb, hslot⟩
        rcases Reply.outcome_eq_value_iff.mp (houtcome.symm.trans hb) with ⟨a, ha, rfl⟩
        exact ⟨a, ha, hslot⟩
      have hnone : failures reply route = [] := by
        apply failures_eq_nil
        intro unit hunit
        rcases List.getElem?_of_mem hunit with ⟨i, hi⟩
        rcases hanswers i unit hi with ⟨a, ha, -⟩
        rw [ha]
        rfl
      have hlength : slots.length = route.length := by
        have hperm := h.length_eq
        simp only [List.length_map, outcomes, List.length_zipIdx] at hperm
        exact length.trans hperm
      have hslots : slots = route.map fun u => (reply u).answer?.map output := by
        apply List.ext_getElem?
        intro i
        rw [List.getElem?_map]
        cases hi : route[i]? with
        | none =>
            have hle : slots.length ≤ i := hlength ▸ List.getElem?_eq_none_iff.mp hi
            rw [List.getElem?_eq_none hle]
            rfl
        | some unit =>
            rcases hanswers i unit hi with ⟨a, ha, hslot⟩
            rw [hslot, Option.map_some, ha]
            rfl
      simp only [answer, hnone, hslots]
  | @failures u e mem failure lowest =>
      rcases exists_of_mem h mem with ⟨unit, hunit, houtcome⟩
      rcases Reply.outcome_eq_failure_iff.mp (houtcome.symm.trans failure) with ⟨f, hreply, rfl⟩
      have hhead := failures_head hunit hreply fun j v f' hv hf' => by
        rcases exists_of_getElem? h hv with ⟨w, hw, rfl, hwoutcome⟩
        exact lowest w hw ⟨_, by rw [hwoutcome, hf']; rfl⟩
      have hlength := length_failures h
      cases hall : failures reply route with
      | nil => simp [hall] at hhead
      | cons first rest =>
          rw [hall, List.head?_cons, Option.some.injEq] at hhead
          rw [hall, List.length_cons] at hlength
          simp only [answer, hall, hhead, hlength]

end

/-! ## Merged answers -/

theorem ofAnswer_update (replies : Replies) (queryId : Nat) (route : List RouteUnit) :
    Response.ofAnswer .update queryId (answer replies.update .count route) =
      replies.updated route := by
  have hcounts : (route.map fun u => (replies.update u).answer?.map Output.count).map
      (fun slot => slot.bind Output.count?) = route.map fun u => (replies.update u).answer? := by
    rw [List.map_map]
    apply List.map_congr_left
    intro u _
    cases hu : (replies.update u).answer? <;> simp [hu, Output.count?]
  cases hall : failures replies.update route with
  | nil =>
      cases htotal : Merge.total? (route.map fun u => (replies.update u).answer?) <;>
        simp only [Response.ofAnswer, answer, hall, hcounts, updated, settle, htotal]
  | cons first rest => simp only [Response.ofAnswer, answer, hall, updated, settle]

theorem ofAnswer_execute (replies : Replies) (queryId : Nat) (route : List RouteUnit) :
    Response.ofAnswer .execute queryId (answer replies.execute .flag route) =
      replies.executed route := by
  have hfirst : Merge.first ((route.map fun u =>
      (replies.execute u).answer?.map Output.flag).map fun slot => slot.bind Output.flag?) =
        (route.head?.bind fun u => (replies.execute u).answer?).getD false := by
    cases route with
    | nil => rfl
    | cons u route =>
        cases hu : (replies.execute u).answer? <;> simp [Merge.first, hu, Output.flag?]
  cases hall : failures replies.execute route with
  | nil => simp only [Response.ofAnswer, answer, hall, hfirst, executed, settle]
  | cons first rest => simp only [Response.ofAnswer, answer, hall, executed, settle]

end Replies

end ScatterGather
