import ScatterGather.Proofs.Grouping.Building

/-!
# Sequence — the order in which the units of a route are planned

A route may name a target more than once.  Its units are planned target by target, so a unit stands
where its target first appears, and only among the units of one target does the route decide.  That
is the order of the route itself if the units of every target stand together in it.

* `Grouping.debut` : where a target first appears;
* `Grouping.Precedes` : the order of the planned units;
* `Grouping.pairwise_planned`, `Grouping.pairwise_units` : plans and groups are in this order;
* `Grouping.Clustered`, `Grouping.clustered_of_nodup` : the routes for which it is their own, those
  with distinct targets among them.
-/

namespace ScatterGather

/-- A unit of a group as it was planned. -/
def Placed.planned (u : Placed BoundUnit) : Placed RouteUnit :=
  { position := u.position, unit := u.unit.route }

namespace Grouping

/-! ## Targets -/

/-- The position at which a target first appears in a route. -/
def debut (route : List RouteUnit) (target : String) : Nat :=
  (route.map RouteUnit.target).idxOf target

theorem pairwise_targets (route : List RouteUnit) :
    (targets route).Pairwise fun t t' => debut route t < debut route t' :=
  pairwise_eraseDups _

theorem debut_le {route : List RouteUnit} {i : Nat} {u : RouteUnit} (hu : route[i]? = some u) :
    debut route u.target ≤ i := by
  rcases List.getElem?_eq_some_iff.mp hu with ⟨hlt, rfl⟩
  have hlt' : i < (route.map RouteUnit.target).length := by simpa using hlt
  by_contra hgt
  have hne := List.not_of_lt_findIdx (Nat.lt_of_not_le hgt)
  simp at hne

/-- There is a unit of the target where it first appears. -/
theorem exists_debut {route : List RouteUnit} {u : RouteUnit} (hu : u ∈ route) :
    ∃ v, route[debut route u.target]? = some v ∧ v.target = u.target := by
  have hmem : u.target ∈ route.map RouteUnit.target := List.mem_map_of_mem hu
  have hget := List.getElem?_idxOf hmem
  rw [List.getElem?_map, Option.map_eq_some_iff] at hget
  exact hget

/-! ## Units -/

/-- Units are planned target by target, and by position. -/
def Precedes (route : List RouteUnit) (p q : Placed RouteUnit) : Prop :=
  debut route p.unit.target < debut route q.unit.target ∨
    p.unit.target = q.unit.target ∧ p.position < q.position

theorem Precedes.position_lt_of_target {route : List RouteUnit} {p q : Placed RouteUnit}
    (h : Precedes route p q) (htarget : p.unit.target = q.unit.target) :
    p.position < q.position := by
  rcases h with hlt | ⟨-, hlt⟩
  · exact absurd hlt (by rw [htarget]; exact Nat.lt_irrefl _)
  · exact hlt

theorem pairwise_placed (route : List RouteUnit) (target : String) :
    (placed route target).Pairwise fun p q => p.position < q.position := by
  have hall : route.zipIdx.Pairwise fun p q => p.2 < q.2 := by
    rw [← List.pairwise_map (f := Prod.snd) (R := (· < ·)), List.zipIdx_map_snd]
    exact List.pairwise_lt_range' ..
  exact List.pairwise_map.mpr (hall.filter _)

theorem pairwise_planned (route : List RouteUnit) :
    ((targets route).flatMap (placed route)).Pairwise (Precedes route) := by
  -- units of one target by position, units of two by the first appearance of those
  refine List.pairwise_flatMap.mpr ⟨fun t _ => ?_, ?_⟩
  · refine (pairwise_placed route t).imp_of_mem fun hp hq hlt => .inr ⟨?_, hlt⟩
    rw [(mem_placed.mp hp).2, (mem_placed.mp hq).2]
  · refine (pairwise_targets route).imp fun hlt p hp q hq => .inl ?_
    rwa [(mem_placed.mp hp).2, (mem_placed.mp hq).2]

/-- The units of every target stand together in the route. -/
def Clustered (route : List RouteUnit) : Prop :=
  ∀ (i j k : Nat) (u v w : RouteUnit), i < j → j < k → route[i]? = some u → route[j]? = some v →
    route[k]? = some w → u.target = w.target → v.target = w.target

theorem clustered_of_nodup {route : List RouteUnit} (h : (route.map RouteUnit.target).Nodup) :
    Clustered route := by
  intro i j k u v w hij hjk hu _ hw htarget
  have hne := List.nodup_iff_getElem?_ne_getElem?.mp h i k (Nat.lt_trans hij hjk)
  simp only [List.length_map, List.getElem?_map, hu, hw, Option.map_some, htarget] at hne
  exact absurd rfl (hne (List.getElem?_eq_some_iff.mp hw).1)

/-- Such a route is planned in its own order. -/
theorem Precedes.position_lt {route : List RouteUnit} {p q : Placed RouteUnit}
    (h : Precedes route p q) (hclustered : Clustered route) (hp : route[p.position]? = some p.unit)
    (hq : route[q.position]? = some q.unit) : p.position < q.position := by
  rcases h with hlt | ⟨-, hlt⟩
  · have hne : q.unit.target ≠ p.unit.target := by
      intro hsame
      exact absurd hlt (by rw [hsame]; exact Nat.lt_irrefl _)
    rcases exists_debut (List.mem_of_getElem? hp) with ⟨first, hfirst, htarget⟩
    have hbetween : debut route p.unit.target < q.position := Nat.lt_of_lt_of_le hlt (debut_le hq)
    rcases Nat.lt_trichotomy p.position q.position with hbefore | hsame | hafter
    · exact hbefore
    · rw [hsame, hq, Option.some.injEq] at hp
      exact absurd (congrArg RouteUnit.target hp) hne
    · -- the later unit would stand between two units of the other target
      exact absurd (hclustered _ _ _ _ _ _ hbetween hafter hfirst hq hp htarget) hne
  · exact hlt

/-! ## Groups -/

variable {b : Backend} {options : StatementOptions} {cap : Nat} {route : List RouteUnit}
  {gs : List (Group Connection BoundUnit)} {w w' : World}

/-- The units of all groups together are those of the route as they were planned. -/
theorem map_planned (h : (group (World.binder b options) cap route).run w = (.ok gs, w')) :
    (gs.flatMap Group.units).map Placed.planned = (targets route).flatMap (placed route) := by
  have hall (ps : List Plan) (gs : List (Group Connection BoundUnit))
      (h : List.Forall₂ (fun p g => g.Built options p) ps gs) :
      (gs.flatMap Group.units).map Placed.planned = ps.flatMap Plan.units := by
    induction h with
    | nil => rfl
    | cons hbuilt _ ih =>
        rw [List.flatMap_cons, List.flatMap_cons, List.map_append, ih, ← hbuilt.units]
        rfl
  rw [hall _ _ (group_built h).1, flatMap_plans]

theorem pairwise_units (h : (group (World.binder b options) cap route).run w = (.ok gs, w')) :
    (gs.flatMap Group.units).Pairwise fun u v => Precedes route u.planned v.planned := by
  rw [← List.pairwise_map, map_planned h]
  exact pairwise_planned route

end Grouping

end ScatterGather
