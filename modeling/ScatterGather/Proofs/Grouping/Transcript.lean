import ScatterGather.Proofs.Grouping.Asking
import ScatterGather.Proofs.Grouping.Connecting

/-!
# Transcript — what grouping says to its binder, and what it is told

Whoever opens connections and prepares units may keep a state of its own and may refuse anything at
any time.  Here its answers are taken down.  Grouping asks for a connection for each group and then
for the units of the group, one after the other, and the first refusal is the end of it.

* `Binder.Demand`, `Binder.Reply`, `Binder.Exchange` : a request to a binder and its answer;
* `Binder.recorded` : a binder that takes down what it is asked and what it answers;
* `Binder.Faithful.bind` : a record of two parts is that of the first and then that of the second;
* `Grouping.Prepares`, `Grouping.Builds`, `Grouping.BuildsAll` : the exchanges in which units are
  prepared and plans are built, and how they end;
* `Grouping.transcript`, `Grouping.group_recorded` : those of a route;
* `Grouping.Ends` : no request was refused, or only the last;
* `Grouping.script` : the requests of a route, given the connections that are supplied;
* `Grouping.asks_in_order` : a transcript follows the script up to the first refusal.
-/

namespace ScatterGather

namespace Binder

/-- A request of grouping. -/
inductive Demand (γ : Type)
  | connect (target : String)
  | connectShared (targets : List String)
  | prepare (connection : γ) (route : RouteUnit) (mode : Mode)

inductive Reply (γ υ : Type)
  | connection (answer : Except ConnectionError γ)
  | unit (answer : Except StatementError υ)

structure Exchange (γ υ : Type) where
  demand : Demand γ
  reply : Reply γ υ

variable {γ υ σ α : Type}

def Demand.connects : Demand γ → Bool
  | connect _ | connectShared _ => true
  | prepare .. => false

namespace Reply

/-- The error with which a request is refused. -/
def error? : Reply γ υ → Option Error
  | connection (.error e) => some (.connection e)
  | unit (.error e) => some (.statement e)
  | connection (.ok _) | unit (.ok _) => none

def connection? : Reply γ υ → Option γ
  | connection (.ok c) => some c
  | connection (.error _) | unit _ => none

end Reply

/-! ## Recording -/

/-- A request takes its course, and is taken down with its answer. -/
def record (demand : Demand γ) (reply : α → Reply γ υ) (x : StateM σ α) :
    StateM (σ × List (Exchange γ υ)) α := fun (s, log) =>
  let (answer, s) := x s
  (answer, s, log ++ [⟨demand, reply answer⟩])

def recorded (b : Binder (StateM σ) γ υ) : Binder (StateM (σ × List (Exchange γ υ))) γ υ :=
  { connect := fun target => record (.connect target) .connection (b.connect target)
    connectShared := fun targets =>
      record (.connectShared targets) .connection (b.connectShared targets)
    prepare := fun connection route mode =>
      record (.prepare connection route mode) .unit (b.prepare connection route mode) }

/-- The reply is one that the binder gives to the request, in some state. -/
inductive Gives (b : Binder (StateM σ) γ υ) : Exchange γ υ → Prop
  | connect (target : String) (s : σ) :
      Gives b ⟨.connect target, .connection ((b.connect target).run s).1⟩
  | connectShared (targets : List String) (s : σ) :
      Gives b ⟨.connectShared targets, .connection ((b.connectShared targets).run s).1⟩
  | prepare (connection : γ) (route : RouteUnit) (mode : Mode) (s : σ) :
      Gives b ⟨.prepare connection route mode, .unit ((b.prepare connection route mode).run s).1⟩

/-- One computation does what the other does, and takes down what passes between it and the binder,
which has a property. -/
def Faithful (b : Binder (StateM σ) γ υ) (x' : StateM (σ × List (Exchange γ υ)) α)
    (x : StateM σ α) (P : List (Exchange γ υ) → α → Prop) : Prop :=
  ∀ s log, ∃ calls, x'.run (s, log) = ((x.run s).1, (x.run s).2, log ++ calls) ∧
    (∀ c ∈ calls, b.Gives c) ∧ P calls (x.run s).1

namespace Faithful

variable {b : Binder (StateM σ) γ υ} {P : List (Exchange γ υ) → α → Prop}

theorem pure {a : α} (h : P [] a) :
    Faithful b (Pure.pure a : StateM (σ × List (Exchange γ υ)) α) (Pure.pure a) P :=
  fun s log => ⟨[], by rw [List.append_nil]; rfl, by simp, h⟩

theorem record {demand : Demand γ} {reply : α → Reply γ υ} {x : StateM σ α}
    (h : ∀ s, b.Gives ⟨demand, reply (x.run s).1⟩) :
    Faithful b (Binder.record demand reply x) x fun calls a => calls = [⟨demand, reply a⟩] :=
  fun s _ => ⟨_, rfl, List.forall_mem_singleton.mpr (h s), rfl⟩

/-- What comes after the first part is taken down behind it. -/
theorem bind {β : Type} {x' : StateM (σ × List (Exchange γ υ)) α} {x : StateM σ α}
    {f' : α → StateM (σ × List (Exchange γ υ)) β} {f : α → StateM σ β}
    {Q : List (Exchange γ υ) → β → Prop} (hx : Faithful b x' x P)
    (hf : ∀ front a, P front a → Faithful b (f' a) (f a) fun back c => Q (front ++ back) c) :
    Faithful b (x' >>= f') (x >>= f) Q := by
  intro s log
  rcases hx s log with ⟨front, hrun', hgives, hfront⟩
  rcases hrun : x.run s with ⟨a, s₁⟩
  rw [hrun] at hrun' hfront
  rcases hf front a hfront s₁ (log ++ front) with ⟨back, hback, hgives', hQ⟩
  refine ⟨front ++ back, ?_, List.forall_mem_append.mpr ⟨hgives, hgives'⟩, ?_⟩
  · rw [Grouping.run_bind_of_run hrun', Grouping.run_bind_of_run hrun, hback, List.append_assoc]
  · rw [Grouping.run_bind_of_run hrun]
    exact hQ

end Faithful

end Binder

/-! ## The exchanges of a plan -/

namespace Grouping

open Binder

variable {γ υ σ : Type}

/-- Asks for the connection of the only target, or for one that several targets share. -/
def connecting (targets : List String) : Demand γ :=
  match targets with
  | [target] => .connect target
  | targets => .connectShared targets

theorem connects_connecting (targets : List String) :
    (connecting targets : Demand γ).connects = true := by
  cases targets with
  | nil => rfl
  | cons target rest => cases rest <;> rfl

theorem connecting_cases {targets : List String} (hne : targets ≠ []) :
    (∃ target, targets = [target] ∧ (connecting targets : Demand γ) = .connect target) ∨
      1 < targets.length ∧ (connecting targets : Demand γ) = .connectShared targets := by
  cases targets with
  | nil => exact absurd rfl hne
  | cons target rest =>
      cases rest with
      | nil => exact .inl ⟨target, rfl, rfl⟩
      | cons other rest => exact .inr ⟨by simp, rfl⟩

/-- Units are prepared one after the other, up to the first that is refused. -/
inductive Prepares (connection : γ) (mode : Mode) : List (Placed RouteUnit) →
    List (Exchange γ υ) → Except StatementError (List (Placed υ)) → Prop
  | nil : Prepares connection mode [] [] (.ok [])
  | refused (p : Placed RouteUnit) (rest : List (Placed RouteUnit)) (e : StatementError) :
      Prepares connection mode (p :: rest)
        [⟨.prepare connection p.unit mode, .unit (.error e)⟩] (.error e)
  | stopped (p : Placed RouteUnit) {rest : List (Placed RouteUnit)} (unit : υ)
      {calls : List (Exchange γ υ)} {e : StatementError}
      (later : Prepares connection mode rest calls (.error e)) :
      Prepares connection mode (p :: rest)
        (⟨.prepare connection p.unit mode, .unit (.ok unit)⟩ :: calls) (.error e)
  | prepared (p : Placed RouteUnit) {rest : List (Placed RouteUnit)} (unit : υ)
      {calls : List (Exchange γ υ)} {us : List (Placed υ)}
      (later : Prepares connection mode rest calls (.ok us)) :
      Prepares connection mode (p :: rest)
        (⟨.prepare connection p.unit mode, .unit (.ok unit)⟩ :: calls)
        (.ok ({ position := p.position, unit } :: us))

/-- A plan is given a connection, and then its units are prepared on it. -/
inductive Builds (p : Plan) : List (Exchange γ υ) → Except Error (Group γ υ) → Prop
  | unconnected (e : ConnectionError) :
      Builds p [⟨connecting p.targets, .connection (.error e)⟩] (.error (.connection e))
  | unprepared (connection : γ) {calls : List (Exchange γ υ)} {e : StatementError}
      (units : Prepares connection p.mode p.units calls (.error e)) :
      Builds p (⟨connecting p.targets, .connection (.ok connection)⟩ :: calls) (.error (.statement e))
  | built (connection : γ) {calls : List (Exchange γ υ)} {us : List (Placed υ)}
      (units : Prepares connection p.mode p.units calls (.ok us)) :
      Builds p (⟨connecting p.targets, .connection (.ok connection)⟩ :: calls)
        (.ok { index := p.index, connection, mode := p.mode, targets := p.targets, units := us })

/-- Plans are built one after the other, up to the first with a refusal. -/
inductive BuildsAll : List Plan → List (Exchange γ υ) → Except Error (List (Group γ υ)) → Prop
  | nil : BuildsAll [] [] (.ok [])
  | refused {p : Plan} (rest : List Plan) {calls : List (Exchange γ υ)} {e : Error}
      (here : Builds p calls (.error e)) : BuildsAll (p :: rest) calls (.error e)
  | stopped {p : Plan} {rest : List Plan} {calls more : List (Exchange γ υ)} {g : Group γ υ}
      {e : Error} (here : Builds p calls (.ok g)) (later : BuildsAll rest more (.error e)) :
      BuildsAll (p :: rest) (calls ++ more) (.error e)
  | built {p : Plan} {rest : List Plan} {calls more : List (Exchange γ υ)} {g : Group γ υ}
      {gs : List (Group γ υ)} (here : Builds p calls (.ok g))
      (later : BuildsAll rest more (.ok gs)) :
      BuildsAll (p :: rest) (calls ++ more) (.ok (g :: gs))

section

variable (b : Binder (StateM σ) γ υ)

theorem acquire_faithful (targets : List String) :
    Faithful b (acquire b.recorded targets) (acquire b targets) fun calls answer =>
      calls = [⟨connecting targets, .connection answer⟩] := by
  have hshared (targets : List String) := Faithful.record (b := b) fun s => .connectShared targets s
  cases targets with
  | nil => exact hshared []
  | cons target rest =>
      cases rest with
      | nil => exact Faithful.record fun s => .connect target s
      | cons other rest => exact hshared (target :: other :: rest)

theorem prepareAll_faithful (connection : γ) (mode : Mode) (ps : List (Placed RouteUnit)) :
    Faithful b (prepareAll b.recorded connection mode ps) (prepareAll b connection mode ps)
      (Prepares connection mode ps) := by
  induction ps with
  | nil => exact .pure .nil
  | cons p rest ih =>
      refine (Faithful.record fun s => .prepare connection p.unit mode s).bind ?_
      rintro _ (e | unit) rfl
      · exact .pure (.refused p rest e)
      · refine ih.bind ?_
        rintro calls (e | us) hcalls
        · exact .pure (by simpa using hcalls.stopped p unit)
        · exact .pure (by simpa using hcalls.prepared p unit)

theorem build_faithful (p : Plan) : Faithful b (build b.recorded p) (build b p) (Builds p) := by
  refine (acquire_faithful b p.targets).bind ?_
  rintro _ (e | connection) rfl
  · exact .pure (.unconnected e)
  · refine (prepareAll_faithful b connection p.mode p.units).bind ?_
    rintro calls (e | us) hcalls
    · exact .pure (by simpa using Builds.unprepared connection hcalls)
    · exact .pure (by simpa using Builds.built connection hcalls)

theorem buildAll_faithful (ps : List Plan) :
    Faithful b (buildAll b.recorded ps) (buildAll b ps) (BuildsAll ps) := by
  induction ps with
  | nil => exact .pure .nil
  | cons p rest ih =>
      refine (build_faithful b p).bind ?_
      rintro calls (e | g) hcalls
      · exact .pure (by simpa using BuildsAll.refused rest hcalls)
      · refine ih.bind ?_
        rintro more (e | gs) hmore
        · exact .pure (by simpa using BuildsAll.stopped hcalls hmore)
        · exact .pure (by simpa using BuildsAll.built hcalls hmore)

/-- The exchanges in which a route is grouped, from a state of the binder on. -/
def transcript (cap : Nat) (route : List RouteUnit) (s : σ) : List (Exchange γ υ) :=
  ((group b.recorded cap route).run (s, [])).2.2

/-- Taking them down changes neither the groups nor the state of the binder. -/
theorem group_recorded (cap : Nat) (route : List RouteUnit) (s : σ) :
    (group b.recorded cap route).run (s, []) = (((group b cap route).run s).1,
      ((group b cap route).run s).2, transcript b cap route s) ∧
    (∀ c ∈ transcript b cap route s, b.Gives c) ∧
    BuildsAll (plans cap route) (transcript b cap route s) ((group b cap route).run s).1 := by
  rcases buildAll_faithful b (plans cap route) s [] with ⟨calls, hrun, hgives, hbuilds⟩
  have hgroup : (group b.recorded cap route).run (s, []) =
      (((group b cap route).run s).1, ((group b cap route).run s).2, calls) := hrun
  have hcalls : transcript b cap route s = calls := by rw [transcript, hgroup]
  rw [hcalls]
  exact ⟨hgroup, hgives, hbuilds⟩

end

/-! ## Refusals -/

/-- No request was refused, or the last one was and no other. -/
def Ends (calls : List (Exchange γ υ)) : Option Error → Prop
  | none => ∀ x ∈ calls, x.reply.error? = none
  | some e => ∃ front last, calls = front ++ [last] ∧ (∀ x ∈ front, x.reply.error? = none) ∧
      last.reply.error? = some e

theorem Ends.append {calls more : List (Exchange γ υ)} {refusal? : Option Error}
    (h : Ends calls none) (hmore : Ends more refusal?) : Ends (calls ++ more) refusal? := by
  cases refusal? with
  | none => exact List.forall_mem_append.mpr ⟨h, hmore⟩
  | some e =>
      rcases hmore with ⟨front, last, rfl, hfront, hlast⟩
      exact ⟨calls ++ front, last, (List.append_assoc ..).symm,
        List.forall_mem_append.mpr ⟨h, hfront⟩, hlast⟩

theorem Ends.single {x : Exchange γ υ} {e : Error} (h : x.reply.error? = some e) :
    Ends [x] (some e) :=
  ⟨[], x, rfl, by simp, h⟩

theorem Ends.cons {x : Exchange γ υ} {calls : List (Exchange γ υ)} {refusal? : Option Error}
    (hx : x.reply.error? = none) (h : Ends calls refusal?) : Ends (x :: calls) refusal? := by
  have hfirst : Ends [x] none := List.forall_mem_singleton.mpr hx
  exact hfirst.append h

theorem Prepares.ends {connection : γ} {mode : Mode} {ps : List (Placed RouteUnit)}
    {calls : List (Exchange γ υ)} {r : Except StatementError (List (Placed υ))}
    (h : Prepares connection mode ps calls r) : Ends calls (refusal? .statement r) := by
  induction h with
  | nil => simp [Ends, refusal?]
  | refused p rest e => exact .single rfl
  | stopped p unit later ih => exact .cons rfl ih
  | prepared p unit later ih => exact .cons rfl ih

theorem Builds.ends {p : Plan} {calls : List (Exchange γ υ)} {r : Except Error (Group γ υ)}
    (h : Builds p calls r) : Ends calls (refusal? id r) := by
  cases h with
  | unconnected e => exact .single rfl
  | unprepared connection units => exact .cons rfl units.ends
  | built connection units => exact .cons rfl units.ends

theorem BuildsAll.ends {ps : List Plan} {calls : List (Exchange γ υ)}
    {r : Except Error (List (Group γ υ))} (h : BuildsAll ps calls r) :
    Ends calls (refusal? id r) := by
  induction h with
  | nil => simp [Ends, refusal?]
  | refused rest here => exact here.ends
  | stopped here later ih => exact Ends.append here.ends ih
  | built here later ih => exact Ends.append here.ends ih

/-! ## The script -/

/-- The requests for a plan, once its connection is there. -/
def Plan.requests (p : Plan) (connection : γ) : List (Demand γ) :=
  connecting p.targets :: p.units.map fun u => .prepare connection u.unit p.mode

/-- The requests for a row of plans, as far as their connections are known. -/
def script : List Plan → List γ → List (Demand γ)
  | [], _ => []
  | p :: _, [] => [connecting p.targets]
  | p :: ps, connection :: connections => p.requests connection ++ script ps connections

/-- The connections that were supplied. -/
def supplied (calls : List (Exchange γ υ)) : List γ :=
  calls.filterMap fun x => x.reply.connection?

theorem supplied_append (calls more : List (Exchange γ υ)) :
    supplied (calls ++ more) = supplied calls ++ supplied more :=
  List.filterMap_append

theorem Prepares.supplied_eq {connection : γ} {mode : Mode} {ps : List (Placed RouteUnit)}
    {calls : List (Exchange γ υ)} {r : Except StatementError (List (Placed υ))}
    (h : Prepares connection mode ps calls r) : supplied calls = [] := by
  induction h with
  | nil => rfl
  | refused p rest e => rfl
  | stopped p unit later ih => exact ih
  | prepared p unit later ih => exact ih

theorem Prepares.demands_prefix {connection : γ} {mode : Mode} {ps : List (Placed RouteUnit)}
    {calls : List (Exchange γ υ)} {r : Except StatementError (List (Placed υ))}
    (h : Prepares connection mode ps calls r) :
    calls.map Exchange.demand <+: ps.map fun u => .prepare connection u.unit mode := by
  induction h with
  | nil => exact List.prefix_refl _
  | refused p rest e => exact ⟨rest.map fun u => .prepare connection u.unit mode, rfl⟩
  | stopped p unit later ih => exact List.cons_prefix_cons.mpr ⟨rfl, ih⟩
  | prepared p unit later ih => exact List.cons_prefix_cons.mpr ⟨rfl, ih⟩

theorem Prepares.demands_eq {connection : γ} {mode : Mode} {ps : List (Placed RouteUnit)}
    {calls : List (Exchange γ υ)} {us : List (Placed υ)}
    (h : Prepares connection mode ps calls (.ok us)) :
    calls.map Exchange.demand = ps.map fun u => .prepare connection u.unit mode := by
  induction ps generalizing calls us with
  | nil =>
      cases h
      rfl
  | cons p rest ih =>
      cases h with
      | prepared _ unit later => exact congrArg (_ :: ·) (ih later)

/-- The requests for a plan that was built, whose connection is that of the group. -/
theorem Builds.demands_eq {p : Plan} {calls : List (Exchange γ υ)} {g : Group γ υ}
    (h : Builds p calls (.ok g)) :
    calls.map Exchange.demand = p.requests g.connection ∧ supplied calls = [g.connection] := by
  cases h with
  | built connection units =>
      refine ⟨congrArg (connecting p.targets :: ·) units.demands_eq, ?_⟩
      exact congrArg (connection :: ·) units.supplied_eq

theorem Builds.demands_prefix {p : Plan} {calls : List (Exchange γ υ)} {e : Error}
    (h : Builds p calls (.error e)) (rest : List Plan) (later : List γ) :
    calls.map Exchange.demand <+: script (p :: rest) (supplied calls ++ later) := by
  cases h with
  | unconnected e =>
      -- the next connection is not known, or it would come after this request
      cases later with
      | nil => exact List.prefix_refl _
      | cons connection later => exact ⟨_, rfl⟩
  | unprepared connection units =>
      have hsupplied :
          supplied (⟨connecting p.targets, .connection (.ok connection)⟩ :: _) = [connection] :=
        congrArg (connection :: ·) units.supplied_eq
      rw [hsupplied]
      exact (List.cons_prefix_cons.mpr ⟨rfl, units.demands_prefix⟩).trans (List.prefix_append ..)

theorem BuildsAll.demands_prefix {ps : List Plan} {calls : List (Exchange γ υ)}
    {r : Except Error (List (Group γ υ))} (h : BuildsAll ps calls r) (later : List γ) :
    calls.map Exchange.demand <+: script ps (supplied calls ++ later) := by
  have hbuilt {p : Plan} {rest : List Plan} {calls more : List (Exchange γ υ)} {g : Group γ υ}
      (here : Builds p calls (.ok g))
      (hrest : more.map Exchange.demand <+: script rest (supplied more ++ later)) :
      (calls ++ more).map Exchange.demand <+:
        script (p :: rest) (supplied (calls ++ more) ++ later) := by
    rcases here.demands_eq with ⟨hdemands, hsupplied⟩
    rw [supplied_append, hsupplied, List.map_append, hdemands]
    exact (List.prefix_append_right_inj _).mpr hrest
  induction h with
  | nil => exact List.nil_prefix
  | refused rest here => exact here.demands_prefix rest later
  | stopped here _ ih => exact hbuilt here ih
  | built here _ ih => exact hbuilt here ih

/-- Plans that are all built take the whole script, and the connections that were supplied. -/
theorem BuildsAll.demands_eq {ps : List Plan} {calls : List (Exchange γ υ)}
    {gs : List (Group γ υ)} (h : BuildsAll ps calls (.ok gs)) :
    calls.map Exchange.demand = script ps (supplied calls) ∧
      supplied calls = gs.map Group.connection ∧ gs.length = ps.length := by
  induction ps generalizing calls gs with
  | nil =>
      cases h
      exact ⟨rfl, rfl, rfl⟩
  | cons p rest ih =>
      cases h with
      | built here later =>
          rcases here.demands_eq with ⟨hdemands, hsupplied⟩
          rcases ih later with ⟨hrest, hconnections, hlength⟩
          refine ⟨?_, ?_, congrArg (· + 1) hlength⟩
          · rw [supplied_append, hsupplied, List.map_append, hdemands, hrest]
            rfl
          · rw [supplied_append, hsupplied, hconnections]
            rfl

/-! ## Connections -/

theorem Prepares.connects_eq {connection : γ} {mode : Mode} {ps : List (Placed RouteUnit)}
    {calls : List (Exchange γ υ)} {r : Except StatementError (List (Placed υ))}
    (h : Prepares connection mode ps calls r) : calls.countP (·.demand.connects) = 0 := by
  induction h with
  | nil => rfl
  | refused p rest e => rfl
  | stopped p unit later ih => simpa [Demand.connects] using ih
  | prepared p unit later ih => simpa [Demand.connects] using ih

theorem Builds.connects_eq {p : Plan} {calls : List (Exchange γ υ)}
    {r : Except Error (Group γ υ)} (h : Builds p calls r) :
    calls.countP (·.demand.connects) = 1 := by
  cases h with
  | unconnected e => simp [connects_connecting]
  | unprepared connection units => simp [connects_connecting, units.connects_eq]
  | built connection units => simp [connects_connecting, units.connects_eq]

/-- There is at most one request for a connection for each plan. -/
theorem BuildsAll.connects_le {ps : List Plan} {calls : List (Exchange γ υ)}
    {r : Except Error (List (Group γ υ))} (h : BuildsAll ps calls r) :
    calls.countP (·.demand.connects) ≤ ps.length := by
  induction h with
  | nil => exact Nat.le_refl _
  | refused rest here =>
      rw [here.connects_eq, List.length_cons]
      omega
  | stopped here _ ih | built here _ ih =>
      rw [List.countP_append, here.connects_eq, List.length_cons]
      omega

/-! ## Routes -/

/-- Nothing but a refused request keeps a route from being grouped. -/
theorem exists_groups {b : Binder (StateM σ) γ υ} {cap : Nat} {route : List RouteUnit} {s : σ}
    (hgranted : ∀ x ∈ transcript b cap route s, x.reply.error? = none) :
    ∃ gs, ((group b cap route).run s).1 = .ok gs := by
  have hends := (group_recorded b cap route s).2.2.ends
  cases hresult : ((group b cap route).run s).1 with
  | ok gs => exact ⟨gs, rfl⟩
  | error e =>
      rw [hresult] at hends
      rcases hends with ⟨front, last, hcalls, -, hlast⟩
      have hmem : last ∈ transcript b cap route s := by simp [hcalls]
      rw [hgranted last hmem] at hlast
      cases hlast

/-- Whatever the binder does, grouping makes the requests of the script in their order: for each
plan one for a connection, and then one for each of its units.  The plans have the targets of the
route in their order, and their units are those of the route, target by target and as they stand in
the route; a plan of several targets has its rows read at once.  If no request is refused these are
all requests, and there are groups.  Else the first that is refused is the last that is made, and
grouping ends with its error.  No more connections are requested than the cap allows. -/
theorem asks_in_order (b : Binder (StateM σ) γ υ) (cap : Nat) (route : List RouteUnit) (s : σ) :
    (group b.recorded cap route).run (s, []) = (((group b cap route).run s).1,
      ((group b cap route).run s).2, transcript b cap route s) ∧
    (∀ x ∈ transcript b cap route s, b.Gives x) ∧
    (plans cap route).flatMap Plan.targets = targets route ∧
    (((plans cap route).flatMap Plan.units).map Placed.position).Perm (List.range route.length) ∧
    (∀ p ∈ plans cap route, p.targets.Sublist (targets route) ∧
      ((∃ target, p.targets = [target] ∧ (connecting p.targets : Demand γ) = .connect target) ∨
        1 < p.targets.length ∧ (connecting p.targets : Demand γ) = .connectShared p.targets) ∧
      (p.mode = .memory ↔ 1 < p.targets.length) ∧ p.units ≠ [] ∧
      (p.units.map Placed.position = p.targets.flatMap fun t =>
        (List.range route.length).filter fun i => route[i]?.map RouteUnit.target == some t) ∧
      ∀ u ∈ p.units, route[u.position]? = some u.unit) ∧
    (∀ later, (transcript b cap route s).map Exchange.demand <+:
      script (plans cap route) (supplied (transcript b cap route s) ++ later)) ∧
    ((∀ x ∈ transcript b cap route s, x.reply.error? = none) →
      (transcript b cap route s).map Exchange.demand =
          script (plans cap route) (supplied (transcript b cap route s)) ∧
        (supplied (transcript b cap route s)).length = (plans cap route).length ∧
        ∃ gs, ((group b cap route).run s).1 = .ok gs) ∧
    ((∃ x ∈ transcript b cap route s, x.reply.error? ≠ none) →
      ∃ front last e, transcript b cap route s = front ++ [last] ∧
        (∀ x ∈ front, x.reply.error? = none) ∧ last.reply.error? = some e ∧
        ((group b cap route).run s).1 = .error e) ∧
    (transcript b cap route s).countP (·.demand.connects) ≤ max cap 1 := by
  rcases group_recorded b cap route s with ⟨hrun, hgives, hbuilds⟩
  have hends := hbuilds.ends
  refine ⟨hrun, hgives, flatMap_targets_plans cap route, plans_positions_perm cap route, ?_,
    hbuilds.demands_prefix, ?_, ?_, Nat.le_trans hbuilds.connects_le (length_plans_le cap route)⟩
  · intro p hp
    exact ⟨targets_sublist hp, connecting_cases (targets_ne_nil hp), p.mode_eq_memory_iff,
      Plan.units_ne_nil hp, Plan.positions_units hp, fun u hu => (Plan.route_of_mem hp hu).1⟩
  · intro hgranted
    rcases exists_groups hgranted with ⟨gs, hresult⟩
    rw [hresult] at hbuilds
    rcases hbuilds.demands_eq with ⟨hdemands, hconnections, hlength⟩
    refine ⟨hdemands, ?_, gs, hresult⟩
    rw [hconnections, List.length_map, hlength]
  · rintro ⟨x, hx, hrefused⟩
    cases hresult : ((group b cap route).run s).1 with
    | ok gs =>
        rw [hresult] at hends
        exact absurd (hends x hx) hrefused
    | error e =>
        rw [hresult] at hends
        rcases hends with ⟨front, last, hcalls, hfront, hlast⟩
        exact ⟨front, last, e, hcalls, hfront, hlast, rfl⟩

/-! ## An example -/

/-- Has a connection for every target and prepares nothing. -/
def barren : Binder (StateM Nat) String Unit :=
  { connect := fun target n => (.ok target, n + 1)
    connectShared := fun targets n => (.ok ("+".intercalate targets), n + 1)
    prepare := fun connection _ _ n => (.error (.prepare connection "refused"), n + 1) }

def lone : List RouteUnit :=
  [⟨"a", ⟨"s0", []⟩⟩]

/-- The last request of a script may be the one that is refused, so the requests may be the whole
script although one of them is. -/
theorem script_refused_at_last :
    ¬ ((transcript barren 1 lone 0).map Exchange.demand =
          script (plans 1 lone) (supplied (transcript barren 1 lone 0)) ∧
        (supplied (transcript barren 1 lone 0)).length = (plans 1 lone).length ↔
      ∀ x ∈ transcript barren 1 lone 0, x.reply.error? = none) := by
  have hcalls : transcript barren 1 lone 0 =
      [⟨.connect "a", .connection (.ok "a")⟩,
        ⟨.prepare "a" ⟨"a", ⟨"s0", []⟩⟩ .stream, .unit (.error (.prepare "a" "refused"))⟩] := rfl
  intro hiff
  have hgranted := hiff.mp ⟨rfl, rfl⟩
  rw [hcalls] at hgranted
  have hlast := hgranted _ (List.mem_cons_of_mem _ (List.mem_singleton.mpr rfl))
  cases hlast

end Grouping

end ScatterGather
