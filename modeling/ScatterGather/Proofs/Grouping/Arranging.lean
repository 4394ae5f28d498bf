import Mathlib.Algebra.Order.BigOperators.Group.List
import Mathlib.Algebra.Order.Group.Nat
import ScatterGather.Proofs.Grouping.Sequence
import ScatterGather.Proofs.Grouping.Transcript

/-!
# Arranging — where a unit of a route comes to stand

A route that is grouped without a refusal is arranged in groups: its distinct targets, in the order
of their first appearance, are cut into as many pieces as there may be connections, and every unit
stands with its target.  What a unit was prepared from is in the transcript.

* `Packing.length_sizes`, `Grouping.length_plans` : how many groups there are;
* `Group.exchanges` : the part of a transcript that belongs to a group;
* `Grouping.BuildsAll.arranged` : groups with their plans and their parts of the transcript;
* `Grouping.granted_route_is_arranged` : the groups of a route of which nothing was refused.
-/

namespace ScatterGather

/-! ## Plans -/

namespace Packing

theorem length_sizes {targets cap : Nat} (hcap : 0 < cap) :
    (sizes targets cap).length = min targets cap := by
  by_cases hle : targets ≤ cap
  · simp [sizes, hle]
  · have hmod : targets % cap < cap := Nat.mod_lt targets hcap
    simp only [sizes, hle, if_false, List.length_append, List.length_replicate]
    omega

theorem map_slice_layOut {α : Type} {xs : List α} {start count : Nat}
    (hle : start + count ≤ xs.length) :
    (layOut start (List.replicate count 1)).map (fun s => s.slice xs) =
      ((xs.drop start).take count).map fun x => [x] := by
  induction count generalizing start with
  | zero => rfl
  | succ count ih =>
      have hstart : start < xs.length := by omega
      have hrest := @ih (start + 1) (by omega)
      have hslice : Span.slice ⟨start, 1⟩ xs = [xs[start]] := by
        rw [Span.slice, List.drop_eq_getElem_cons hstart]
        rfl
      rw [List.replicate_succ, layOut, List.map_cons, hslice, hrest,
        List.drop_eq_getElem_cons hstart]
      rfl

/-- With no more elements than spans each element has its own. -/
theorem map_slice_spans {α : Type} {cap : Nat} {xs : List α} (hle : xs.length ≤ cap) :
    (spans xs.length cap).map (fun s => s.slice xs) = xs.map fun x => [x] := by
  have hsizes : sizes xs.length cap = List.replicate xs.length 1 := if_pos hle
  rw [spans, hsizes, map_slice_layOut (by omega)]
  simp

end Packing

namespace Grouping

open Binder

theorem length_plans (cap : Nat) (route : List RouteUnit) :
    (plans cap route).length = min (targets route).length (max cap 1) := by
  have hlength := congrArg List.length (targets_plans cap route)
  rw [List.length_map, List.length_map, Packing.spans, Packing.length_layOut,
    Packing.length_sizes (effectiveCap_pos cap)] at hlength
  exact hlength

theorem index_plans (cap : Nat) (route : List RouteUnit) :
    (plans cap route).map Plan.index = List.range (plans cap route).length := by
  have hindex (row : List (List String)) :
      (row.zipIdx.map fun t => plan route t.2 t.1).map Plan.index = List.range row.length := by
    rw [List.map_map, List.range_eq_range']
    exact List.zipIdx_map_snd ..
  rw [plans, hindex]
  simp

end Grouping

/-! ## Groups -/

section

open Binder

variable {γ υ σ : Type}

/-- The exchanges that make a group: one for its connection, and one for each of its units, which
is prepared from the route unit at its position. -/
def Group.exchanges (route : List RouteUnit) (g : Group γ υ) : List (Exchange γ υ) :=
  ⟨Grouping.connecting g.targets, .connection (.ok g.connection)⟩ ::
    g.units.filterMap fun u => route[u.position]?.map fun r =>
      ⟨.prepare g.connection r g.mode, .unit (.ok u.unit)⟩

/-- A group with all that its plan says of it. -/
structure Group.Fills (p : Grouping.Plan) (g : Group γ υ) : Prop where
  index : g.index = p.index
  mode : g.mode = p.mode
  targets : g.targets = p.targets
  positions : g.units.map Placed.position = p.units.map Placed.position

namespace Grouping

variable {route : List RouteUnit}

theorem Prepares.arranged {connection : γ} {mode : Mode} {ps : List (Placed RouteUnit)}
    {calls : List (Exchange γ υ)} {us : List (Placed υ)}
    (h : Prepares connection mode ps calls (.ok us))
    (hroute : ∀ p ∈ ps, route[p.position]? = some p.unit) :
    us.map Placed.position = ps.map Placed.position ∧
      calls = us.filterMap fun u => route[u.position]?.map fun r =>
        ⟨.prepare connection r mode, .unit (.ok u.unit)⟩ := by
  induction ps generalizing calls us with
  | nil =>
      cases h
      exact ⟨rfl, rfl⟩
  | cons p rest ih =>
      cases h with
      | prepared _ unit later =>
          rcases List.forall_mem_cons.mp hroute with ⟨hp, hrest⟩
          rcases ih later hrest with ⟨hpositions, hcalls⟩
          refine ⟨congrArg (p.position :: ·) hpositions, ?_⟩
          simp [hp, hcalls]

theorem Builds.arranged {p : Plan} {calls : List (Exchange γ υ)} {g : Group γ υ}
    (h : Builds p calls (.ok g)) (hroute : ∀ u ∈ p.units, route[u.position]? = some u.unit) :
    g.Fills p ∧ calls = g.exchanges route := by
  cases h with
  | built connection units =>
      rcases units.arranged hroute with ⟨hpositions, hcalls⟩
      exact ⟨⟨rfl, rfl, rfl, hpositions⟩, by rw [Group.exchanges, hcalls]⟩

theorem BuildsAll.arranged {ps : List Plan} {calls : List (Exchange γ υ)} {gs : List (Group γ υ)}
    (h : BuildsAll ps calls (.ok gs))
    (hroute : ∀ p ∈ ps, ∀ u ∈ p.units, route[u.position]? = some u.unit) :
    List.Forall₂ Group.Fills ps gs ∧ calls = gs.flatMap (Group.exchanges route) := by
  induction ps generalizing calls gs with
  | nil =>
      cases h
      exact ⟨.nil, rfl⟩
  | cons p rest ih =>
      cases h with
      | built here later =>
          rcases List.forall_mem_cons.mp hroute with ⟨hp, hrest⟩
          rcases here.arranged hp with ⟨hfills, hcalls⟩
          rcases ih later hrest with ⟨hall, hmore⟩
          exact ⟨.cons hfills hall, by rw [hcalls, hmore, List.flatMap_cons]⟩

section

variable {ps : List Plan} {gs : List (Group γ υ)} {g : Group γ υ}

/-- What is read off the plans is read off the groups. -/
theorem map_fills {δ : Type} {f : Plan → δ} {f' : Group γ υ → δ}
    (h : List.Forall₂ Group.Fills ps gs) (hf : ∀ {p : Plan} {g : Group γ υ}, g.Fills p → f' g = f p) :
    gs.map f' = ps.map f := by
  induction h with
  | nil => rfl
  | cons hfills _ ih => rw [List.map_cons, List.map_cons, hf hfills, ih]

theorem exists_filled (h : List.Forall₂ Group.Fills ps gs) (hg : g ∈ gs) :
    ∃ p ∈ ps, g.Fills p := by
  induction h with
  | nil => cases hg
  | @cons p g' rest gs hfills _ ih =>
      rcases List.mem_cons.mp hg with rfl | hg
      · exact ⟨p, List.mem_cons_self .., hfills⟩
      · rcases ih hg with ⟨q, hq, hfills⟩
        exact ⟨q, List.mem_cons_of_mem _ hq, hfills⟩

/-- Where there are more targets than groups some group has more than one. -/
theorem exists_crowded (hmany : gs.length < (gs.flatMap Group.targets).length) :
    ∃ g ∈ gs, 1 < g.targets.length := by
  by_contra hnone
  have hle : ∀ g ∈ gs, g.targets.length ≤ 1 := by
    intro g hg
    by_contra hgt
    exact hnone ⟨g, hg, Nat.lt_of_not_le hgt⟩
  have hsum := List.sum_le_card_nsmul (gs.map fun g => g.targets.length) 1
    (List.forall_mem_map.mpr hle)
  rw [List.length_map, Nat.nsmul_eq_mul, Nat.mul_one, ← List.length_flatMap] at hsum
  exact absurd hmany (Nat.not_lt.mpr hsum)

end

/-- A group has the units of its targets, target by target and by position, and it has some. -/
theorem units_of_fills {cap : Nat} {p : Plan} {g : Group γ υ} (hp : p ∈ plans cap route)
    (h : g.Fills p) :
    g.units ≠ [] ∧ g.units.map Placed.position = g.targets.flatMap fun t =>
      (List.range route.length).filter fun i => route[i]?.map RouteUnit.target == some t := by
  constructor
  · intro hnil
    have hpositions := h.positions
    rw [hnil] at hpositions
    exact Plan.units_ne_nil hp (List.map_eq_nil_iff.mp hpositions.symm)
  · rw [h.positions, h.targets, Plan.positions_units hp]

theorem mode_of_fills {p : Plan} {g : Group γ υ} (h : g.Fills p) :
    g.mode = .memory ↔ 1 < g.targets.length := by
  rw [h.mode, h.targets]
  exact p.mode_eq_memory_iff

/-- The positions of the units are those of the plans, and so each of the route once. -/
theorem positions_of_fills {cap : Nat} {gs : List (Group γ υ)}
    (h : List.Forall₂ Group.Fills (plans cap route) gs) :
    ((gs.flatMap Group.units).map Placed.position).Perm (List.range route.length) := by
  have hunits := map_fills h Group.Fills.positions
  rw [List.map_flatMap, List.flatMap_def, hunits, ← List.flatMap_def, ← List.map_flatMap]
  exact plans_positions_perm cap route

/-- With no more targets than connections each target has a group of its own, which streams. -/
theorem alone_of_fills {cap : Nat} {gs : List (Group γ υ)}
    (h : List.Forall₂ Group.Fills (plans cap route) gs)
    (hfew : (targets route).length ≤ max cap 1) :
    gs.map Group.targets = (targets route).map (fun t => [t]) ∧ ∀ g ∈ gs, g.mode = .stream := by
  have hrow : gs.map Group.targets = (targets route).map fun t => [t] := by
    rw [map_fills h Group.Fills.targets, targets_plans]
    exact Packing.map_slice_spans hfew
  refine ⟨hrow, fun g hg => ?_⟩
  -- a group of one target is none of several
  have hone : g.targets ∈ (targets route).map fun t => [t] := hrow ▸ List.mem_map_of_mem hg
  rcases List.mem_map.mp hone with ⟨t, -, ht⟩
  rcases exists_filled h hg with ⟨p, -, hfills⟩
  have hnot := mode_of_fills hfills
  rw [← ht] at hnot
  cases hm : g.mode with
  | stream => rfl
  | memory => exact absurd (hnot.mp hm) (Nat.lt_irrefl 1)

/-- What stands in the transcript as a unit of a group was prepared for it. -/
theorem exists_prepared {b : Binder (StateM σ) γ υ} {calls : List (Exchange γ υ)} {g : Group γ υ}
    {u : Placed υ} {r : RouteUnit} (hgives : ∀ x ∈ calls, b.Gives x)
    (hcalls : ∀ x ∈ g.exchanges route, x ∈ calls) (hu : u ∈ g.units)
    (hr : route[u.position]? = some r) :
    ∃ s, ((b.prepare g.connection r g.mode).run s).1 = .ok u.unit := by
  have hmem : ⟨.prepare g.connection r g.mode, .unit (.ok u.unit)⟩ ∈ g.exchanges route :=
    List.mem_cons_of_mem _ (List.mem_filterMap.mpr ⟨u, hu, by rw [hr]; rfl⟩)
  generalize hx : (⟨.prepare g.connection r g.mode, .unit (.ok u.unit)⟩ : Exchange γ υ) = x at hmem
  cases hgives x (hcalls x hmem) with
  | connect | connectShared => cases hx
  | prepare connection route mode s =>
      injection hx with hdemand hreply
      cases hdemand
      injection hreply with hanswer
      exact ⟨s, hanswer.symm⟩

/-- A route of which no request is refused is arranged in groups that are numbered from zero, one
for each connection that it may have, or one for each of its targets if these are fewer.  The
targets of the groups, one after the other, are those of the route in the order of their first
appearance.  A group has the units of its targets, each prepared from the route unit at its
position, on the connection of the group and in its mode, and every position of the route is that
of one unit.  Groups of one target stream, and groups of several are read at once. -/
theorem granted_route_is_arranged (b : Binder (StateM σ) γ υ) (cap : Nat) (route : List RouteUnit)
    (s : σ) (hgranted : ∀ x ∈ transcript b cap route s, x.reply.error? = none) :
    ∃ gs, ((group b cap route).run s).1 = .ok gs ∧
      transcript b cap route s = gs.flatMap (Group.exchanges route) ∧
      gs.map Group.index = List.range gs.length ∧
      gs.length = min (targets route).length (max cap 1) ∧
      ((gs.flatMap Group.units).map Placed.position).Perm (List.range route.length) ∧
      gs.flatMap Group.targets = targets route ∧
      ((targets route).Pairwise fun t t' => debut route t < debut route t') ∧
      (∀ t, t ∈ targets route ↔ ∃ u ∈ route, u.target = t) ∧
      (∀ g ∈ gs, g.units ≠ [] ∧ (g.mode = .memory ↔ 1 < g.targets.length) ∧
        (g.units.map Placed.position = g.targets.flatMap fun t =>
          (List.range route.length).filter fun i => route[i]?.map RouteUnit.target == some t) ∧
        ∀ u ∈ g.units, ∃ r s', route[u.position]? = some r ∧
          ((b.prepare g.connection r g.mode).run s').1 = .ok u.unit) ∧
      ((targets route).length ≤ max cap 1 →
        gs.map Group.targets = (targets route).map (fun t => [t]) ∧ ∀ g ∈ gs, g.mode = .stream) ∧
      (max cap 1 < (targets route).length → ∃ g ∈ gs, g.mode = .memory) := by
  rcases exists_groups hgranted with ⟨gs, hresult⟩
  rcases group_recorded b cap route s with ⟨-, hgives, hbuilds⟩
  rw [hresult] at hbuilds
  rcases hbuilds.arranged fun p hp u hu => (Plan.route_of_mem hp hu).1 with ⟨hfills, hcalls⟩
  have hlength : gs.length = min (targets route).length (max cap 1) :=
    hfills.length_eq.symm.trans (length_plans cap route)
  have hindex : gs.map Group.index = List.range gs.length := by
    rw [map_fills hfills Group.Fills.index, index_plans, hfills.length_eq]
  have htargets : gs.flatMap Group.targets = targets route := by
    rw [List.flatMap_def, map_fills hfills Group.Fills.targets, ← List.flatMap_def,
      flatMap_targets_plans]
  have hpositions := positions_of_fills hfills
  have hmode : ∀ g ∈ gs, g.mode = .memory ↔ 1 < g.targets.length := by
    intro g hg
    rcases exists_filled hfills hg with ⟨p, -, h⟩
    exact mode_of_fills h
  refine ⟨gs, hresult, hcalls, hindex, hlength, hpositions, htargets, pairwise_targets route,
    fun t => mem_targets, ?_, alone_of_fills hfills, ?_⟩
  · intro g hg
    rcases exists_filled hfills hg with ⟨p, hp, h⟩
    rcases units_of_fills hp h with ⟨hne, hunits⟩
    refine ⟨hne, hmode g hg, hunits, fun u hu => ?_⟩
    have hlt : u.position < route.length := by
      have hmem : u.position ∈ (gs.flatMap Group.units).map Placed.position :=
        List.mem_map_of_mem (List.mem_flatMap.mpr ⟨g, hg, hu⟩)
      exact List.mem_range.mp (hpositions.mem_iff.mp hmem)
    have hroute := List.getElem?_eq_getElem hlt
    have hpart : ∀ x ∈ g.exchanges route, x ∈ transcript b cap route s := by
      intro x hx
      rw [hcalls]
      exact List.mem_flatMap.mpr ⟨g, hg, hx⟩
    rcases exists_prepared hgives hpart hu hroute with ⟨s', hprepared⟩
    exact ⟨_, s', hroute, hprepared⟩
  · intro hmany
    have hcrowd : gs.length < (gs.flatMap Group.targets).length := by
      rw [htargets, hlength]
      omega
    rcases exists_crowded hcrowd with ⟨g, hg, hgt⟩
    exact ⟨g, hg, (hmode g hg).mpr hgt⟩

/-! ## An example -/

/-- Has a connection for every target and prepares everything, and counts what it is asked. -/
def eager : Binder (StateM Nat) String (String × Mode) :=
  { connect := fun target n => (.ok target, n + 1)
    connectShared := fun targets n => (.ok ("+".intercalate targets), n + 1)
    prepare := fun _ route mode n => (.ok (route.statement.sql, mode), n + 1) }

/-- Three targets, of which the first stands in the route twice. -/
def crossed : List RouteUnit :=
  [⟨"a", ⟨"s0", []⟩⟩, ⟨"b", ⟨"s1", []⟩⟩, ⟨"a", ⟨"s2", []⟩⟩, ⟨"c", ⟨"s3", []⟩⟩]

theorem granted_route_is_arranged_crossed :
    ∃ gs, ((group eager 2 crossed).run 0).1 = .ok gs ∧ gs.length = 2 ∧
      gs.flatMap Group.targets = ["a", "b", "c"] ∧
      gs.map (fun g => g.units.map Placed.position) = [[0, 2, 1], [3]] ∧
      transcript eager 2 crossed 0 = gs.flatMap (Group.exchanges crossed) ∧
      ∃ g ∈ gs, g.mode = .memory := by
  have hgranted : ∀ x ∈ transcript eager 2 crossed 0, x.reply.error? = none := by
    decide
  have hrun : ((group eager 2 crossed).run 0).1 = .ok
      [⟨0, "a+b", .memory, ["a", "b"],
          [⟨0, ("s0", .memory)⟩, ⟨2, ("s2", .memory)⟩, ⟨1, ("s1", .memory)⟩]⟩,
        ⟨1, "c", .stream, ["c"], [⟨3, ("s3", .stream)⟩]⟩] := rfl
  rcases granted_route_is_arranged eager 2 crossed 0 hgranted with
    ⟨gs, hresult, hcalls, -, hlength, -, htargets, -, -, -, -, hmemory⟩
  have hgs := Except.ok.inj (hresult.symm.trans hrun)
  refine ⟨gs, hresult, hlength, htargets, ?_, hcalls, hmemory (by decide)⟩
  rw [hgs]
  rfl

/-- A cap of zero allows one connection, and one target alone has it for itself. -/
theorem lone_target_streams :
    (∀ x ∈ transcript eager 0 lone 0, x.reply.error? = none) ∧
      ¬ ∀ gs, ((group eager 0 lone).run 0).1 = .ok gs → 0 < (targets lone).length →
        ∃ g ∈ gs, g.mode = .memory := by
  refine ⟨by decide, fun h => ?_⟩
  rcases h [⟨0, "a", .stream, ["a"], [⟨0, ("s0", .stream)⟩]⟩] rfl (by decide) with ⟨g, hg, hmode⟩
  cases List.mem_singleton.mp hg
  cases hmode

end Grouping

end

end ScatterGather
