import ScatterGather.Proofs.Grouping.Building

/-!
# Connecting — the connections that a route is given

A connection has the number of those that were handed out before it, so no two are ever alike.  A
group takes one of them, and where building stops half way those that were handed out by then belong
to no group.

* `World.Connected` : a world in which more connections were handed out, and these are they;
* `Grouping.group_connected` : grouping a route hands out connections, and where it ends well they
  are those of the groups;
* `World.performAll_connections` : units hand out none;
* `Grouping.length_le_cap` : there are no more groups than the cap allows;
* `Grouping.connection_eq_iff_of_stream` : the units that have their connection from a stream.
-/

namespace ScatterGather

/-- The connections `new` were handed out, and nothing was done but to prepare statements. -/
structure World.Connected (w w' : World) (new : List Connection) : Prop where
  connections : w'.connections = w.connections ++ new
  numbered : new.map Connection.id = List.range' w.connections.length new.length
  frame : w' = { w with connections := w'.connections, prepared := w'.prepared, log := w'.log }

namespace World

/-- Every connection has the number of its place. -/
def Numbered (w : World) : Prop :=
  w.connections.map Connection.id = List.range w.connections.length

namespace Connected

variable {w w₁ w₂ : World} {new new' : List Connection}

theorem of_eq (hframe : w₁ = { w with prepared := w₁.prepared, log := w₁.log }) :
    w.Connected w₁ [] :=
  ⟨by rw [hframe, List.append_nil], rfl, by rw [hframe]⟩

theorem refl (w : World) : w.Connected w [] :=
  .of_eq rfl

theorem trans (h : w.Connected w₁ new) (h' : w₁.Connected w₂ new') :
    w.Connected w₂ (new ++ new') := by
  refine ⟨?_, ?_, by rw [h'.frame, h.frame]⟩
  · rw [h'.connections, h.connections, List.append_assoc]
  · rw [List.map_append, h.numbered, h'.numbered, h.connections, List.length_append,
      List.length_append, List.range'_append_1]

theorem numbered_world (h : w.Connected w₁ new) (hw : w.Numbered) : w₁.Numbered := by
  rw [Numbered, h.connections, List.map_append, h.numbered, hw, List.length_append,
    List.range_eq_range', List.range_eq_range']
  simpa using List.range'_append_1 (s := 0) (m := w.connections.length) (n := new.length)

end Connected

/-- The numbers tell connections apart. -/
theorem Numbered.nodup {w : World} (h : w.Numbered) :
    (w.connections.map Connection.id).Nodup :=
  h ▸ List.nodup_range

/-! ## Frames -/

theorem perform_connections (w : World) (x : Effect) :
    (w.perform x).connections = w.connections := by
  cases x with
  | readCursor handle => cases hc : w.cursor? handle <;> simp [perform, hc, setCursor]
  | openCursor | announce | beginCall | endCall | trackStatement | trackCursor | countUnit => rfl

theorem performAll_connections (w : World) (xs : List Effect) :
    (xs.foldl perform w).connections = w.connections := by
  induction xs generalizing w with
  | nil => rfl
  | cons x xs ih => rw [List.foldl_cons, ih, perform_connections]

/-- Closing a handle is no business of its connection, nor of the registry that tracked it. -/
theorem close_frame (w : World) (r : Resource Statement CursorHandle) :
    w.close r = { w with
      closed := (w.close r).closed, cursors := (w.close r).cursors, log := (w.close r).log } := by
  cases r with
  | statement s => rfl
  | cursor handle => cases hc : w.cursor? handle <;> simp [close, hc, setCursor]

end World

namespace Grouping

variable {b : Backend} {options : StatementOptions} {w w' : World}

/-! ## Requests -/

theorem connect_connected (b : Backend) (target : String) (w : World) :
    w.Connected (World.requestConnection b target w).2
      (World.requestConnection b target w).1.toOption.toList := by
  cases hr : b.refusal? target with
  | some e =>
      simp only [World.requestConnection, hr]
      exact .of_eq rfl
  | none =>
      simp only [World.requestConnection, hr]
      exact ⟨rfl, rfl, rfl⟩

theorem acquire_connected (b : Backend) (options : StatementOptions) (targets : List String)
    (w : World) : w.Connected ((acquire (World.binder b options) targets).run w).2
      ((acquire (World.binder b options) targets).run w).1.toOption.toList := by
  have hshared : w.Connected (World.requestShared b targets w).2
      (World.requestShared b targets w).1.toOption.toList := by
    cases hs : b.sharing with
    | lead =>
        cases targets with
        | nil =>
            simp only [World.requestShared, hs, leadConnection]
            exact .refl w
        | cons lead rest =>
            simp only [World.requestShared, hs, leadConnection]
            exact connect_connected b lead w
    | joined =>
        cases hr : targets.findSome? b.refusal? with
        | some e =>
            simp only [World.requestShared, hs, hr]
            exact .of_eq rfl
        | none =>
            simp only [World.requestShared, hs, hr]
            exact ⟨rfl, rfl, rfl⟩
  rcases acquire_cases (World.binder b options) targets with ⟨target, -, hone⟩ | hall
  · rw [hone]
    exact connect_connected b target w
  · rw [hall]
    exact hshared

theorem prepareUnit_connected (b : Backend) (options : StatementOptions) (connection : Connection)
    (route : RouteUnit) (mode : Mode) (w : World) :
    w.Connected (World.prepareUnit b options connection route mode w).2 [] := by
  cases hp : b.prepareError? connection route with
  | some e =>
      simp only [World.prepareUnit, World.prepare, hp]
      exact .of_eq rfl
  | none =>
      simp only [World.prepareUnit, World.prepare, hp]
      exact .of_eq rfl

/-! ## Groups -/

theorem prepareAll_connected (b : Backend) (options : StatementOptions) (connection : Connection)
    (mode : Mode) (ps : List (Placed RouteUnit)) (w : World) :
    w.Connected ((prepareAll (World.binder b options) connection mode ps).run w).2 [] := by
  induction ps generalizing w with
  | nil => exact .refl w
  | cons p rest ih =>
      have hfirst := prepareUnit_connected b options connection p.unit mode w
      rcases hu : ((World.binder b options).prepare connection p.unit mode).run w with ⟨u, w₁⟩
      have hw₁ : w.Connected w₁ [] := by
        have heq : World.prepareUnit b options connection p.unit mode w = (u, w₁) := hu
        rwa [heq] at hfirst
      rw [prepareAll, run_bind_of_run hu]
      cases u with
      | error e => exact hw₁
      | ok u =>
          have hrest := ih w₁
          rcases hr : (prepareAll (World.binder b options) connection mode rest).run w₁ with
            ⟨us, w₂⟩
          rw [hr] at hrest
          simp only
          rw [run_bind_of_run hr]
          cases us <;> exact hw₁.trans hrest

/-- A group takes the one connection that was handed out for it. -/
theorem build_connected (b : Backend) (options : StatementOptions) (p : Plan) (w : World) :
    ∃ new, w.Connected ((build (World.binder b options) p).run w).2 new ∧
      ∀ g, ((build (World.binder b options) p).run w).1 = .ok g → new = [g.connection] := by
  have hfirst := acquire_connected b options p.targets w
  rcases hc : (acquire (World.binder b options) p.targets).run w with ⟨c, w₁⟩
  rw [hc] at hfirst
  rw [build, run_bind_of_run hc]
  cases c with
  | error e => exact ⟨[], hfirst, fun g hg => by cases hg⟩
  | ok connection =>
      have hrest := prepareAll_connected b options connection p.mode p.units w₁
      rcases hu : (prepareAll (World.binder b options) connection p.mode p.units).run w₁ with
        ⟨us, w₂⟩
      rw [hu] at hrest
      simp only
      rw [run_bind_of_run hu]
      refine ⟨[connection], ?_, ?_⟩
      · cases us <;> exact hfirst.trans hrest
      · intro g hg
        cases us with
        | error e => cases hg
        | ok us =>
            cases hg
            rfl

theorem buildAll_connected (b : Backend) (options : StatementOptions) (ps : List Plan)
    (w : World) : ∃ new, w.Connected ((buildAll (World.binder b options) ps).run w).2 new ∧
      ∀ gs, ((buildAll (World.binder b options) ps).run w).1 = .ok gs →
        new = gs.map Group.connection := by
  induction ps generalizing w with
  | nil => exact ⟨[], .refl w, fun gs hgs => by cases hgs; rfl⟩
  | cons p rest ih =>
      rcases build_connected b options p w with ⟨new, hfirst, hnew⟩
      rcases hg : (build (World.binder b options) p).run w with ⟨g, w₁⟩
      rw [hg] at hfirst hnew
      rw [buildAll, run_bind_of_run hg]
      cases g with
      | error e => exact ⟨new, hfirst, fun gs hgs => by cases hgs⟩
      | ok g =>
          rcases ih w₁ with ⟨more, hrest, hmore⟩
          rcases hr : (buildAll (World.binder b options) rest).run w₁ with ⟨gs, w₂⟩
          rw [hr] at hrest hmore
          simp only
          rw [run_bind_of_run hr]
          refine ⟨new ++ more, ?_, ?_⟩
          · cases gs <;> exact hfirst.trans hrest
          · intro gs' hgs'
            cases gs with
            | error e => cases hgs'
            | ok gs =>
                cases hgs'
                rw [hnew g rfl, hmore gs rfl]
                rfl

theorem group_connected (b : Backend) (options : StatementOptions) (cap : Nat)
    (route : List RouteUnit) (w : World) :
    ∃ new, w.Connected ((group (World.binder b options) cap route).run w).2 new ∧
      ∀ gs, ((group (World.binder b options) cap route).run w).1 = .ok gs →
        new = gs.map Group.connection :=
  buildAll_connected b options _ w

end Grouping

/-! ## The cap -/

namespace Packing

theorem length_sizes_le {targets cap : Nat} (hcap : 0 < cap) :
    (sizes targets cap).length ≤ cap := by
  by_cases hle : targets ≤ cap
  · simp [sizes, hle]
  · have hmod : targets % cap < cap := Nat.mod_lt targets hcap
    simp only [sizes, hle, if_false, List.length_append, List.length_replicate]
    omega

theorem length_layOut (start : Nat) (sizes : List Nat) :
    (layOut start sizes).length = sizes.length := by
  induction sizes generalizing start with
  | nil => rfl
  | cons size rest ih => rw [layOut, List.length_cons, List.length_cons, ih]

end Packing

namespace Grouping

theorem length_plans_le (cap : Nat) (route : List RouteUnit) :
    (plans cap route).length ≤ max cap 1 := by
  have hsizes : (Packing.sizes (targets route).length (effectiveCap cap)).length ≤ max cap 1 :=
    Packing.length_sizes_le (effectiveCap_pos cap)
  simpa [plans, Packing.spans, Packing.length_layOut] using hsizes

/-- No more connections are in use than the cap allows. -/
theorem length_le_cap {b : Backend} {options : StatementOptions} {w w' : World} {cap : Nat}
    {route : List RouteUnit} {gs : List (Group Connection BoundUnit)}
    (h : (group (World.binder b options) cap route).run w = (.ok gs, w')) :
    gs.length ≤ max cap 1 :=
  (group_built h).1.length_eq ▸ length_plans_le cap route

/-! ## Streams -/

section

variable {b : Backend} {options : StatementOptions} {w w' : World} {cap : Nat}
  {route : List RouteUnit} {gs : List (Group Connection BoundUnit)}
  {g g' : Group Connection BoundUnit} {u v : Placed BoundUnit}

/-- No two groups of a route are on one connection. -/
theorem eq_of_connection (h : (group (World.binder b options) cap route).run w = (.ok gs, w'))
    (hg : g ∈ gs) (hg' : g' ∈ gs) (hsame : g.connection = g'.connection) : g = g' := by
  rcases group_connected b options cap route w with ⟨new, hconnected, hnew⟩
  rw [h] at hconnected hnew
  have hids := hconnected.numbered
  rw [hnew gs rfl, List.map_map] at hids
  exact List.inj_on_of_nodup_map (hids ▸ List.nodup_range' _) hg hg' (congrArg Connection.id hsame)

/-- A group that streams has all units of its one target. -/
theorem mem_units_iff_of_stream
    (h : (group (World.binder b options) cap route).run w = (.ok gs, w')) (hg : g ∈ gs)
    (hu : u ∈ g.units) (hm : g.mode = .stream) (hv : v ∈ gs.flatMap Group.units) :
    v ∈ g.units ↔ v.unit.route.target = u.unit.route.target := by
  constructor
  · exact (mode_eq_stream h hg hu).mp hm v
  · intro htarget
    rcases exists_plan h hg with ⟨p, hp, hbuilt⟩
    rcases List.mem_flatMap.mp hv with ⟨g', hg', hvg⟩
    -- the plan has something at the position of the unit, and the groups have nothing else there
    have hplanned : { position := v.position, unit := v.unit.route } ∈ p.units := by
      have hmode : p.mode = .stream := hbuilt.mode ▸ hm
      rw [Plan.units_of_stream hp (hbuilt.units ▸ List.mem_map_of_mem hu) hmode]
      exact mem_placed.mpr ⟨(bound_of_mem h hg' hvg).1, htarget⟩
    rw [← hbuilt.units] at hplanned
    rcases List.mem_map.mp hplanned with ⟨v', hv', hsame⟩
    have hpositions := (group_positions_perm h).nodup_iff.mpr List.nodup_range
    have heq : v' = v := List.inj_on_of_nodup_map hpositions
      (List.mem_flatMap.mpr ⟨g, hg, hv'⟩) hv (Placed.mk.inj hsame).1
    exact heq ▸ hv'

/-- The connection of a unit that streams serves the units of its target, and no others. -/
theorem connection_eq_iff_of_stream
    (h : (group (World.binder b options) cap route).run w = (.ok gs, w'))
    (hu : u ∈ gs.flatMap Group.units) (hm : u.unit.mode = .stream)
    (hv : v ∈ gs.flatMap Group.units) :
    v.unit.connection = u.unit.connection ↔ v.unit.route.target = u.unit.route.target := by
  rcases List.mem_flatMap.mp hu with ⟨g, hg, hug⟩
  rcases List.mem_flatMap.mp hv with ⟨g', hg', hvg⟩
  rcases bound_of_mem h hg hug with ⟨-, hconnection, hmode, -⟩
  rw [← mem_units_iff_of_stream h hg hug (hmode ▸ hm) hv, hconnection,
    (bound_of_mem h hg' hvg).2.1]
  constructor
  · intro hsame
    exact eq_of_connection h hg' hg hsame ▸ hvg
  · intro hmem
    exact (bound_of_mem h hg' hvg).2.1.symm.trans (bound_of_mem h hg hmem).2.1

end

end Grouping

end ScatterGather
