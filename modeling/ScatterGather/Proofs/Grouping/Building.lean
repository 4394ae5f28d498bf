import ScatterGather.Proofs.Grouping.Planning
import ScatterGather.World

/-!
# Building — what becomes of the plans of a route

A plan that is built has a connection and a prepared statement for each of its units.  Statements
are numbered as they are prepared, so no two units ever share one, and until a unit runs nothing of
what the cursors hold has changed.

* `World.Grown` : what opening and preparing do to a world;
* `Group.Built` : a group that was built from a plan;
* `Grouping.Granted` : no request that building makes is refused;
* `Grouping.exists_buildAll_iff` : these are the plans that can be built;
* `Grouping.group_grown`, `Grouping.group_built` : all groups of a route.
-/

namespace ScatterGather

/-- More may have been opened and prepared, but no cursor. -/
structure World.Grown (w w' : World) : Prop where
  cursors : w'.cursors = w.cursors
  prepared : w.prepared ≤ w'.prepared

namespace World.Grown

variable {w w₁ w₂ : World}

theorem refl (w : World) : w.Grown w :=
  ⟨rfl, Nat.le_refl _⟩

theorem trans (h : w.Grown w₁) (h' : w₁.Grown w₂) : w.Grown w₂ :=
  ⟨h'.cursors.trans h.cursors, Nat.le_trans h.prepared h'.prepared⟩

end World.Grown

/-- A group with the units of a plan, each prepared on the connection of the group. -/
structure Group.Built (options : StatementOptions) (p : Grouping.Plan)
    (g : Group Connection BoundUnit) : Prop where
  mode : g.mode = p.mode
  units : (g.units.map fun u => { position := u.position, unit := u.unit.route }) = p.units
  bound : ∀ u ∈ g.units, u.unit.connection = g.connection ∧ u.unit.mode = g.mode ∧
    u.unit.statement.connection = g.connection ∧ u.unit.statement.route = u.unit.route ∧
    u.unit.statement.options = options

namespace Grouping

variable {b : Backend} {options : StatementOptions} {connection : Connection} {mode : Mode}
  {w w' : World}

/-! ## Single requests -/

theorem connect_grown (b : Backend) (target : String) (w : World) :
    w.Grown (World.requestConnection b target w).2 ∧
      (World.requestConnection b target w).2.prepared = w.prepared := by
  cases hr : b.refusal? target <;>
    simp [World.requestConnection, hr, World.note, World.connect] <;> exact ⟨rfl, Nat.le_refl _⟩

/-- A plan asks for the connection of its one target, or for a shared one. -/
theorem acquire_cases {m : Type → Type} [Monad m] {γ υ : Type} (b : Binder m γ υ)
    (targets : List String) :
    (∃ target, targets = [target] ∧ acquire b targets = b.connect target) ∨
      acquire b targets = b.connectShared targets := by
  cases targets with
  | nil => exact .inr rfl
  | cons target rest =>
      cases rest with
      | nil => exact .inl ⟨target, rfl, rfl⟩
      | cons other rest => exact .inr rfl

theorem acquire_grown (b : Backend) (options : StatementOptions) (targets : List String)
    (w : World) : w.Grown ((acquire (World.binder b options) targets).run w).2 ∧
      ((acquire (World.binder b options) targets).run w).2.prepared = w.prepared := by
  have hshared : w.Grown (World.requestShared b targets w).2 ∧
      (World.requestShared b targets w).2.prepared = w.prepared := by
    cases hs : b.sharing with
    | lead =>
        cases targets with
        | nil =>
            simp only [World.requestShared, hs, leadConnection]
            exact ⟨.refl w, rfl⟩
        | cons lead rest =>
            simp only [World.requestShared, hs, leadConnection]
            exact connect_grown b lead w
    | joined =>
        cases hr : targets.findSome? b.refusal? <;>
          simp [World.requestShared, hs, hr, World.note, World.connect] <;>
          exact ⟨rfl, Nat.le_refl _⟩
  rcases acquire_cases (World.binder b options) targets with ⟨target, -, hone⟩ | hall
  · rw [hone]
    exact connect_grown b target w
  · rw [hall]
    exact hshared

theorem prepareUnit_grown (b : Backend) (options : StatementOptions) (connection : Connection)
    (route : RouteUnit) (mode : Mode) (w : World) :
    w.Grown (World.prepareUnit b options connection route mode w).2 := by
  cases hp : b.prepareError? connection route with
  | some e =>
      simp only [World.prepareUnit, World.prepare, hp]
      exact ⟨rfl, Nat.le_refl _⟩
  | none =>
      simp only [World.prepareUnit, World.prepare, hp]
      exact ⟨rfl, Nat.le_succ _⟩

/-- A unit that was prepared has the next number. -/
theorem prepareUnit_ok {route : RouteUnit} {u : BoundUnit}
    (h : World.prepareUnit b options connection route mode w = (.ok u, w')) :
    u = { route, connection, mode,
          statement := { id := w.prepared, connection, route, options } } ∧
      w'.prepared = w.prepared + 1 := by
  cases hp : b.prepareError? connection route with
  | some e =>
      simp only [World.prepareUnit, World.prepare, hp, Except.map] at h
      cases h
  | none =>
      simp only [World.prepareUnit, World.prepare, hp, Except.map] at h
      cases h
      exact ⟨rfl, rfl⟩

theorem exists_prepareUnit_iff {route : RouteUnit} :
    (∃ u w', World.prepareUnit b options connection route mode w = (.ok u, w')) ↔
      b.prepareError? connection route = none := by
  cases hp : b.prepareError? connection route with
  | some e =>
      simp only [World.prepareUnit, World.prepare, hp, Except.map]
      constructor
      · rintro ⟨u, w', h⟩
        cases h
      · intro h
        cases h
  | none =>
      simp only [World.prepareUnit, World.prepare, hp, Except.map]
      exact ⟨fun _ => trivial, fun _ => ⟨_, _, rfl⟩⟩

/-! ## Groups -/

/-- A computation goes on where its first part has left the state. -/
theorem run_bind_of_run {σ α β : Type} {x : StateM σ α} {a : α} {s s' : σ}
    (hx : x.run s = (a, s')) (f : α → StateM σ β) : (x >>= f).run s = (f a).run s' := by
  rw [StateT.run_bind, hx]
  rfl

/-- A refusal is never recovered from, so what ends well went well at its first part. -/
theorem exists_of_run_bind_ok {ε ε' α β : Type} {x : StateM World (Except ε α)}
    {f : Except ε α → StateM World (Except ε' β)} {c : β} (h : (x >>= f).run w = (.ok c, w'))
    (hf : ∀ e w, ∃ e', (f (.error e)).run w = (.error e', w)) :
    ∃ a w₁, x.run w = (.ok a, w₁) ∧ (f (.ok a)).run w₁ = (.ok c, w') := by
  rcases hx : x.run w with ⟨result, w₁⟩
  rw [run_bind_of_run hx] at h
  cases result with
  | error e =>
      rcases hf e w₁ with ⟨e', he⟩
      rw [he] at h
      cases h
  | ok a => exact ⟨a, w₁, rfl, h⟩

theorem prepareAll_cons_ok_iff {p : Placed RouteUnit} {rest : List (Placed RouteUnit)}
    {us : List (Placed BoundUnit)} :
    (prepareAll (World.binder b options) connection mode (p :: rest)).run w = (.ok us, w') ↔
      ∃ u w₁ units, World.prepareUnit b options connection p.unit mode w = (.ok u, w₁) ∧
        (prepareAll (World.binder b options) connection mode rest).run w₁ = (.ok units, w') ∧
        us = { position := p.position, unit := u } :: units := by
  rw [prepareAll]
  constructor
  · intro h
    rcases exists_of_run_bind_ok h fun e _ => ⟨e, rfl⟩ with ⟨u, w₁, hu, h⟩
    rcases exists_of_run_bind_ok h fun e _ => ⟨e, rfl⟩ with ⟨units, w₂, hunits, h⟩
    cases h
    exact ⟨u, w₁, units, hu, hunits, rfl⟩
  · rintro ⟨u, w₁, units, hu, hunits, rfl⟩
    have hrun : ((World.binder b options).prepare connection p.unit mode).run w = (.ok u, w₁) := hu
    rw [run_bind_of_run hrun]
    simp only
    rw [run_bind_of_run hunits]
    rfl

theorem build_ok_iff {p : Plan} {g : Group Connection BoundUnit} :
    (build (World.binder b options) p).run w = (.ok g, w') ↔
      ∃ connection w₁ units,
        (acquire (World.binder b options) p.targets).run w = (.ok connection, w₁) ∧
        (prepareAll (World.binder b options) connection p.mode p.units).run w₁ = (.ok units, w') ∧
        g = { index := p.index, connection, mode := p.mode, targets := p.targets, units } := by
  rw [build]
  constructor
  · intro h
    rcases exists_of_run_bind_ok h fun e _ => ⟨.connection e, rfl⟩ with
      ⟨connection, w₁, hconnection, h⟩
    rcases exists_of_run_bind_ok h fun e _ => ⟨.statement e, rfl⟩ with ⟨units, w₂, hunits, h⟩
    cases h
    exact ⟨connection, w₁, units, hconnection, hunits, rfl⟩
  · rintro ⟨connection, w₁, units, hconnection, hunits, rfl⟩
    rw [run_bind_of_run hconnection]
    simp only
    rw [run_bind_of_run hunits]
    rfl

theorem buildAll_cons_ok_iff {p : Plan} {rest : List Plan}
    {gs : List (Group Connection BoundUnit)} :
    (buildAll (World.binder b options) (p :: rest)).run w = (.ok gs, w') ↔
      ∃ g w₁ groups, (build (World.binder b options) p).run w = (.ok g, w₁) ∧
        (buildAll (World.binder b options) rest).run w₁ = (.ok groups, w') ∧
        gs = g :: groups := by
  rw [buildAll]
  constructor
  · intro h
    rcases exists_of_run_bind_ok h fun e _ => ⟨e, rfl⟩ with ⟨g, w₁, hg, h⟩
    rcases exists_of_run_bind_ok h fun e _ => ⟨e, rfl⟩ with ⟨groups, w₂, hgroups, h⟩
    cases h
    exact ⟨g, w₁, groups, hg, hgroups, rfl⟩
  · rintro ⟨g, w₁, groups, hg, hgroups, rfl⟩
    rw [run_bind_of_run hg]
    simp only
    rw [run_bind_of_run hgroups]
    rfl

theorem bind_grown {α β : Type} {x : StateM World α} {f : α → StateM World β}
    (hx : ∀ w : World, w.Grown (x.run w).2) (hf : ∀ a (w : World), w.Grown ((f a).run w).2)
    (w : World) : w.Grown ((x >>= f).run w).2 := by
  rcases hrun : x.run w with ⟨a, w₁⟩
  have hfirst := hx w
  rw [hrun] at hfirst
  rw [run_bind_of_run hrun]
  exact hfirst.trans (hf a w₁)

theorem prepareAll_grown (b : Backend) (options : StatementOptions) (connection : Connection)
    (mode : Mode) (ps : List (Placed RouteUnit)) (w : World) :
    w.Grown ((prepareAll (World.binder b options) connection mode ps).run w).2 := by
  induction ps generalizing w with
  | nil => exact .refl w
  | cons p rest ih =>
      rw [prepareAll]
      refine bind_grown (prepareUnit_grown b options connection p.unit mode) ?_ w
      rintro (e | u) w₁
      · exact .refl w₁
      · refine bind_grown ih ?_ w₁
        rintro (e | units) w₂ <;> exact .refl w₂

/-- Units that were prepared have consecutive numbers, from that of the world on. -/
theorem prepareAll_ok {ps : List (Placed RouteUnit)} {us : List (Placed BoundUnit)}
    (h : (prepareAll (World.binder b options) connection mode ps).run w = (.ok us, w')) :
    (us.map fun u => { position := u.position, unit := u.unit.route }) = ps ∧
      (∀ u ∈ us, u.unit.connection = connection ∧ u.unit.mode = mode ∧
        u.unit.statement.connection = connection ∧ u.unit.statement.route = u.unit.route ∧
        u.unit.statement.options = options) ∧
      (us.map fun u => u.unit.statement.id) = List.range' w.prepared us.length ∧
      w'.prepared = w.prepared + us.length := by
  induction ps generalizing w us with
  | nil =>
      cases h
      exact ⟨rfl, by simp, rfl, rfl⟩
  | cons p rest ih =>
      rcases prepareAll_cons_ok_iff.mp h with ⟨u, w₁, units, hu, hr, rfl⟩
      rcases prepareUnit_ok hu with ⟨rfl, hnext⟩
      rcases ih hr with ⟨hunits, hbound, hids, hprepared⟩
      refine ⟨?_, ?_, ?_, ?_⟩
      · rw [List.map_cons, hunits]
      · intro v hv
        rcases List.mem_cons.mp hv with rfl | hv
        · exact ⟨rfl, rfl, rfl, rfl, rfl⟩
        · exact hbound v hv
      · rw [List.map_cons, hids, hnext, List.length_cons, List.range'_succ]
      · rw [hprepared, hnext, List.length_cons]
        omega

theorem build_grown (b : Backend) (options : StatementOptions) (p : Plan) (w : World) :
    w.Grown ((build (World.binder b options) p).run w).2 := by
  rw [build]
  refine bind_grown (fun w => (acquire_grown b options p.targets w).1) ?_ w
  rintro (e | connection) w₁
  · exact .refl w₁
  · refine bind_grown (prepareAll_grown b options connection p.mode p.units) ?_ w₁
    rintro (e | units) w₂ <;> exact .refl w₂

theorem build_ok {p : Plan} {g : Group Connection BoundUnit}
    (h : (build (World.binder b options) p).run w = (.ok g, w')) :
    g.Built options p ∧
      (g.units.map fun u => u.unit.statement.id) = List.range' w.prepared g.units.length ∧
      w'.prepared = w.prepared + g.units.length := by
  rcases build_ok_iff.mp h with ⟨connection, w₁, units, hconnection, hp, rfl⟩
  have hacquire := (acquire_grown b options p.targets w).2
  rw [hconnection] at hacquire
  rcases prepareAll_ok hp with ⟨hunits, hbound, hids, hprepared⟩
  simp only at hacquire
  rw [hacquire] at hids hprepared
  exact ⟨⟨rfl, hunits, hbound⟩, hids, hprepared⟩

theorem buildAll_grown (b : Backend) (options : StatementOptions) (ps : List Plan) (w : World) :
    w.Grown ((buildAll (World.binder b options) ps).run w).2 := by
  induction ps generalizing w with
  | nil => exact .refl w
  | cons p rest ih =>
      rw [buildAll]
      refine bind_grown (build_grown b options p) ?_ w
      rintro (e | g) w₁
      · exact .refl w₁
      · refine bind_grown ih ?_ w₁
        rintro (e | groups) w₂ <;> exact .refl w₂

theorem buildAll_ok {ps : List Plan} {gs : List (Group Connection BoundUnit)}
    (h : (buildAll (World.binder b options) ps).run w = (.ok gs, w')) :
    List.Forall₂ (fun p g => g.Built options p) ps gs ∧
      ((gs.flatMap Group.units).map fun u => u.unit.statement.id) =
        List.range' w.prepared (gs.flatMap Group.units).length ∧
      w'.prepared = w.prepared + (gs.flatMap Group.units).length := by
  induction ps generalizing w gs with
  | nil =>
      cases h
      exact ⟨.nil, rfl, rfl⟩
  | cons p rest ih =>
      rcases buildAll_cons_ok_iff.mp h with ⟨g, w₁, groups, hg, hr, rfl⟩
      rcases build_ok hg with ⟨hbuilt, hids, hnext⟩
      rcases ih hr with ⟨hbuilts, hidss, hprepared⟩
      refine ⟨.cons hbuilt hbuilts, ?_, ?_⟩
      · rw [List.flatMap_cons, List.map_append, hids, hidss, hnext, List.length_append,
          List.range'_append_1]
      · rw [hprepared, hnext, List.flatMap_cons, List.length_append]
        omega

/-! ## Granted requests -/

theorem connect_granted {target : String} (w : World) (h : b.refusal? target = none) :
    ∃ connection w', (World.requestConnection b target).run w = (.ok connection, w') := by
  simp only [StateT.run, World.requestConnection, h]
  exact ⟨_, _, rfl⟩

theorem acquire_granted {targets : List String} (options : StatementOptions) (w : World)
    (hne : targets ≠ []) (h : ∀ t ∈ targets, b.refusal? t = none) :
    ∃ connection w', (acquire (World.binder b options) targets).run w = (.ok connection, w') := by
  rcases acquire_cases (World.binder b options) targets with ⟨target, rfl, hone⟩ | hall
  · rw [hone]
    exact connect_granted w (h target (List.mem_singleton.mpr rfl))
  · rw [hall]
    cases hs : b.sharing with
    | lead =>
        cases targets with
        | nil => exact absurd rfl hne
        | cons lead rest =>
            simp only [World.binder, World.requestShared, hs, leadConnection]
            exact connect_granted w (h lead (List.mem_cons_self ..))
    | joined =>
        have hnone : targets.findSome? b.refusal? = none := List.findSome?_eq_none_iff.mpr h
        simp only [World.binder, World.requestShared, hs, StateT.run, hnone]
        exact ⟨_, _, rfl⟩

/-- Units are prepared if and only if the backend refuses none of them. -/
theorem exists_prepareAll_iff {ps : List (Placed RouteUnit)} :
    (∃ us w', (prepareAll (World.binder b options) connection mode ps).run w = (.ok us, w')) ↔
      ∀ p ∈ ps, b.prepareError? connection p.unit = none := by
  induction ps generalizing w with
  | nil => exact ⟨by simp, fun _ => ⟨[], w, rfl⟩⟩
  | cons p rest ih =>
      rw [List.forall_mem_cons]
      constructor
      · rintro ⟨us, w', h⟩
        rcases prepareAll_cons_ok_iff.mp h with ⟨u, w₁, units, hu, hunits, -⟩
        exact ⟨exists_prepareUnit_iff.mp ⟨u, w₁, hu⟩, ih.mp ⟨units, w', hunits⟩⟩
      · rintro ⟨hfirst, hrest⟩
        rcases exists_prepareUnit_iff.mpr hfirst with ⟨u, w₁, hu⟩
        rcases ih.mpr hrest with ⟨units, w', hunits⟩
        exact ⟨_, w', prepareAll_cons_ok_iff.mpr ⟨u, w₁, units, hu, hunits, rfl⟩⟩

/-- Each request that building the plans makes is granted when its turn comes. -/
inductive Granted (b : Backend) (options : StatementOptions) : List Plan → World → Prop
  | nil {w : World} : Granted b options [] w
  | cons {p : Plan} {rest : List Plan} {w w₁ : World} {connection : Connection}
      (connected : (acquire (World.binder b options) p.targets).run w = (.ok connection, w₁))
      (prepared : ∀ u ∈ p.units, b.prepareError? connection u.unit = none)
      (later : Granted b options rest
        ((prepareAll (World.binder b options) connection p.mode p.units).run w₁).2) :
      Granted b options (p :: rest) w

/-- Nothing but a refused request keeps plans from being built. -/
theorem exists_buildAll_iff {ps : List Plan} :
    (∃ gs w', (buildAll (World.binder b options) ps).run w = (.ok gs, w')) ↔
      Granted b options ps w := by
  induction ps generalizing w with
  | nil => exact ⟨fun _ => .nil, fun _ => ⟨[], w, rfl⟩⟩
  | cons p rest ih =>
      constructor
      · rintro ⟨gs, w', h⟩
        rcases buildAll_cons_ok_iff.mp h with ⟨g, w₂, groups, hg, hrest, -⟩
        rcases build_ok_iff.mp hg with ⟨connection, w₁, units, hconnection, hunits, -⟩
        refine .cons hconnection (exists_prepareAll_iff.mp ⟨units, w₂, hunits⟩) ?_
        rw [hunits]
        exact ih.mp ⟨groups, w', hrest⟩
      · intro h
        cases h with
        | @cons _ _ _ w₁ connection connected prepared later =>
            rcases exists_prepareAll_iff.mpr prepared with ⟨units, w₂, hunits⟩
            rw [hunits] at later
            rcases ih.mpr later with ⟨groups, w', hrest⟩
            have hg := build_ok_iff.mpr ⟨connection, w₁, units, connected, hunits, rfl⟩
            exact ⟨_, w', buildAll_cons_ok_iff.mpr ⟨_, w₂, groups, hg, hrest, rfl⟩⟩

/-! ## Routes -/

/-- A backend without a refusal for any target or unit of the route grants all requests. -/
theorem granted_of_accepts {route : List RouteUnit} (options : StatementOptions) (cap : Nat)
    (w : World) (hconnect : ∀ u ∈ route, b.refusal? u.target = none)
    (hprepare : ∀ connection, ∀ u ∈ route, b.prepareError? connection u = none) :
    Granted b options (plans cap route) w := by
  have hplans {ps : List Plan} (w : World) (hmem : ∀ p ∈ ps, p ∈ plans cap route) :
      Granted b options ps w := by
    induction ps generalizing w with
    | nil => exact .nil
    | cons p rest ih =>
        have hp : p ∈ plans cap route := hmem p (List.mem_cons_self ..)
        have hgranted : ∀ t ∈ p.targets, b.refusal? t = none := by
          intro t ht
          rcases mem_targets.mp ((targets_sublist hp).subset ht) with ⟨u, hu, rfl⟩
          exact hconnect u hu
        rcases acquire_granted options w (targets_ne_nil hp) hgranted with
          ⟨connection, w₁, hconnection⟩
        refine .cons hconnection ?_ (ih _ fun q hq => hmem q (List.mem_cons_of_mem _ hq))
        intro u hu
        exact hprepare connection u.unit (List.mem_of_getElem? (Plan.route_of_mem hp hu).1)
  exact hplans w fun _ hp => hp

theorem group_grown (b : Backend) (options : StatementOptions) (cap : Nat)
    (route : List RouteUnit) (w : World) :
    w.Grown ((group (World.binder b options) cap route).run w).2 :=
  buildAll_grown b options _ w

theorem group_built {cap : Nat} {route : List RouteUnit} {gs : List (Group Connection BoundUnit)}
    (h : (group (World.binder b options) cap route).run w = (.ok gs, w')) :
    List.Forall₂ (fun p g => g.Built options p) (plans cap route) gs ∧
      ((gs.flatMap Group.units).map fun u => u.unit.statement.id) =
        List.range' w.prepared (gs.flatMap Group.units).length ∧
      w'.prepared = w.prepared + (gs.flatMap Group.units).length :=
  buildAll_ok h

section

variable {cap : Nat} {route : List RouteUnit} {gs : List (Group Connection BoundUnit)}
  {g : Group Connection BoundUnit} {u : Placed BoundUnit}

/-- Each position of the route is that of one unit in one group. -/
theorem group_positions_perm
    (h : (group (World.binder b options) cap route).run w = (.ok gs, w')) :
    ((gs.flatMap Group.units).map Placed.position).Perm (List.range route.length) := by
  have hpositions {ps : List Plan} {gs : List (Group Connection BoundUnit)}
      (hall : List.Forall₂ (fun p g => g.Built options p) ps gs) :
      (gs.flatMap Group.units).map Placed.position =
        (ps.flatMap Plan.units).map Placed.position := by
    induction hall with
    | nil => rfl
    | cons hbuilt _ ih =>
        simp only [List.flatMap_cons, List.map_append, ih, ← hbuilt.units, List.map_map]
        rfl
  rw [hpositions (group_built h).1]
  exact plans_positions_perm cap route

/-- Statements are not shared, in or between groups. -/
theorem group_ids_nodup (h : (group (World.binder b options) cap route).run w = (.ok gs, w')) :
    ((gs.flatMap Group.units).map fun u => u.unit.statement.id).Nodup := by
  rw [(group_built h).2.1]
  exact List.nodup_range' _

theorem group_id_bounds (h : (group (World.binder b options) cap route).run w = (.ok gs, w'))
    (hg : g ∈ gs) (hu : u ∈ g.units) :
    w.prepared ≤ u.unit.statement.id ∧ u.unit.statement.id < w'.prepared := by
  rcases group_built h with ⟨-, hids, hnext⟩
  have hmem : u.unit.statement.id ∈ (gs.flatMap Group.units).map fun u => u.unit.statement.id :=
    List.mem_map.mpr ⟨u, List.mem_flatMap.mpr ⟨g, hg, hu⟩, rfl⟩
  rw [hids, List.mem_range'_1] at hmem
  rw [hnext]
  exact hmem

theorem exists_plan (h : (group (World.binder b options) cap route).run w = (.ok gs, w'))
    (hg : g ∈ gs) : ∃ p ∈ plans cap route, g.Built options p := by
  rcases List.forall₂_iff_get.mp (group_built h).1 with ⟨hlength, hall⟩
  rcases List.mem_iff_get.mp hg with ⟨⟨i, hi⟩, rfl⟩
  have hi' : i < (plans cap route).length := hlength ▸ hi
  exact ⟨_, List.get_mem _ ⟨i, hi'⟩, hall i hi' hi⟩

/-- A unit of a group is that of the route at its position, prepared on the connection of the
group. -/
theorem bound_of_mem (h : (group (World.binder b options) cap route).run w = (.ok gs, w'))
    (hg : g ∈ gs) (hu : u ∈ g.units) : route[u.position]? = some u.unit.route ∧
      u.unit.connection = g.connection ∧ u.unit.mode = g.mode ∧
      u.unit.statement = { id := u.unit.statement.id, connection := g.connection,
                           route := u.unit.route, options } := by
  rcases exists_plan h hg with ⟨p, hp, hbuilt⟩
  have hplaced : { position := u.position, unit := u.unit.route } ∈ p.units :=
    hbuilt.units ▸ List.mem_map_of_mem hu
  rcases hbuilt.bound u hu with ⟨hconnection, hmode, hstatement, hroute, hoptions⟩
  refine ⟨(Plan.route_of_mem hp hplaced).1, hconnection, hmode, ?_⟩
  rw [← hstatement, ← hroute, ← hoptions]

/-- The units of the groups are those of the route with their places, in another order. -/
theorem group_units_perm (h : (group (World.binder b options) cap route).run w = (.ok gs, w')) :
    ((gs.flatMap Group.units).map fun u => (u.unit.route, u.position)).Perm route.zipIdx := by
  have hpositions := group_positions_perm h
  have hplace : ∀ v ∈ gs.flatMap Group.units, route[v.position]? = some v.unit.route := by
    intro v hv
    rcases List.mem_flatMap.mp hv with ⟨g, hg, hvg⟩
    exact (bound_of_mem h hg hvg).1
  -- neither has anything twice, for no two have the same position
  have hnodup : ((gs.flatMap Group.units).map fun u => (u.unit.route, u.position)).Nodup := by
    refine .of_map Prod.snd ?_
    rw [List.map_map]
    exact hpositions.nodup_iff.mpr List.nodup_range
  have hnodup' : route.zipIdx.Nodup := by
    refine .of_map Prod.snd ?_
    rw [List.zipIdx_map_snd]
    exact List.nodup_range' _
  refine (List.perm_ext_iff_of_nodup hnodup hnodup').mpr ?_
  rintro ⟨unit, i⟩
  rw [List.mem_zipIdx_iff_getElem?]
  constructor
  · intro hmem
    rcases List.mem_map.mp hmem with ⟨v, hv, heq⟩
    cases heq
    exact hplace v hv
  · intro hunit
    have hlt : i < route.length := (List.getElem?_eq_some_iff.mp hunit).1
    rcases List.mem_map.mp (hpositions.symm.subset (List.mem_range.mpr hlt)) with ⟨v, hv, rfl⟩
    have hsame : v.unit.route = unit := Option.some.inj ((hplace v hv).symm.trans hunit)
    exact List.mem_map.mpr ⟨v, hv, by rw [hsame]⟩

/-- A group streams if and only if its units have one target. -/
theorem mode_eq_stream (h : (group (World.binder b options) cap route).run w = (.ok gs, w'))
    (hg : g ∈ gs) (hu : u ∈ g.units) :
    g.mode = .stream ↔ ∀ v ∈ g.units, v.unit.route.target = u.unit.route.target := by
  rcases exists_plan h hg with ⟨p, hp, hbuilt⟩
  have hplaced : { position := u.position, unit := u.unit.route } ∈ p.units :=
    hbuilt.units ▸ List.mem_map_of_mem hu
  rw [hbuilt.mode, Plan.mode_eq_stream hp hplaced, ← hbuilt.units, List.forall_mem_map]

end

end Grouping

end ScatterGather
