import Mathlib.Algebra.Ring.Nat
import Mathlib.Data.List.Nodup
import ScatterGather.Grouping
import ScatterGather.Proofs.Partition

/-!
# Planning — every unit of a route is in one plan

The spans cut the row of distinct targets into pieces, and a plan takes the units of its targets.
So nothing of the route is lost and nothing is taken twice, whatever the cap.

* `Packing.flatMap_spans` : the spans put the row together again;
* `Grouping.flatMap_targets_plans` : the plans have the targets of the route;
* `Grouping.plans_positions_perm` : the positions of the planned units are those of the route;
* `Grouping.Plan.positions_units` : the units of a plan are those of its targets;
* `Grouping.Plan.mode_eq_stream` : a plan streams if and only if its units have one target.
-/

namespace ScatterGather

namespace Packing

variable {α : Type}

/-- The longer spans take what division leaves over. -/
theorem sum_sizes {targets cap : Nat} (hcap : 0 < cap) : (sizes targets cap).sum = targets := by
  by_cases hle : targets ≤ cap
  · simp [sizes, hle]
  · have hmod : targets % cap < cap := Nat.mod_lt targets hcap
    have hdiv : cap * (targets / cap) + targets % cap = targets := Nat.div_add_mod targets cap
    simp only [sizes, hle, if_false, List.sum_append_nat, List.sum_replicate_nat]
    calc
      targets % cap * (targets / cap + 1) + (cap - targets % cap) * (targets / cap)
          = (targets % cap + (cap - targets % cap)) * (targets / cap) + targets % cap := by
            rw [Nat.mul_add, Nat.add_mul]
            omega
      _ = cap * (targets / cap) + targets % cap := by
            rw [Nat.add_sub_cancel' (Nat.le_of_lt hmod)]
      _ = targets := hdiv

theorem flatMap_layOut (start : Nat) (sizes : List Nat) (xs : List α) :
    (layOut start sizes).flatMap (fun s => s.slice xs) = (xs.drop start).take sizes.sum := by
  induction sizes generalizing start with
  | nil => simp [layOut]
  | cons size rest ih =>
      have hslice : Span.slice ⟨start, size⟩ xs = (xs.drop start).take size := rfl
      rw [layOut, List.flatMap_cons, ih, hslice, List.sum_cons, List.take_add, List.drop_drop]

theorem flatMap_spans {cap : Nat} (hcap : 0 < cap) (xs : List α) :
    (spans xs.length cap).flatMap (fun s => s.slice xs) = xs := by
  rw [spans, flatMap_layOut, sum_sizes hcap]
  simp

theorem slice_sublist (s : Span) (xs : List α) : (s.slice xs).Sublist xs :=
  (List.take_sublist ..).trans (List.drop_sublist ..)

theorem size_pos {targets cap size : Nat} (hcap : 0 < cap) (h : size ∈ sizes targets cap) :
    0 < size := by
  by_cases hle : targets ≤ cap
  · simp only [sizes, hle, if_true, List.mem_replicate] at h
    omega
  · have hdiv : 0 < targets / cap := Nat.div_pos (by omega) hcap
    simp only [sizes, hle, if_false, List.mem_append, List.mem_replicate] at h
    omega

theorem of_mem_layOut {start : Nat} {sizes : List Nat} {s : Span} (h : s ∈ layOut start sizes) :
    s.size ∈ sizes ∧ s.stop ≤ start + sizes.sum := by
  induction sizes generalizing start with
  | nil => cases h
  | cons size rest ih =>
      rcases List.mem_cons.mp h with rfl | hrest
      · simp [Span.stop]
      · rcases ih hrest with ⟨hsize, hstop⟩
        refine ⟨List.mem_cons_of_mem _ hsize, ?_⟩
        rw [List.sum_cons]
        omega

/-- No span is empty, for there are targets enough. -/
theorem slice_ne_nil {cap : Nat} (hcap : 0 < cap) {xs : List α} {s : Span}
    (h : s ∈ spans xs.length cap) : s.slice xs ≠ [] := by
  rcases of_mem_layOut h with ⟨hsize, hstop⟩
  have hpos := size_pos hcap hsize
  rw [sum_sizes hcap] at hstop
  simp only [Span.stop] at hstop
  refine List.ne_nil_of_length_pos ?_
  simp only [Span.slice, List.length_take, List.length_drop]
  omega

end Packing

namespace Grouping

/-! ## Targets -/

/-- What is kept by a filter keeps its order. -/
theorem idxOf_lt_of_filter {p : String → Bool} {xs : List String} {a b : String} (ha : p a)
    (hb : p b) (h : (xs.filter p).idxOf a < (xs.filter p).idxOf b) : xs.idxOf a < xs.idxOf b := by
  induction xs with
  | nil => exact absurd h (Nat.lt_irrefl _)
  | cons x xs ih =>
      by_cases hxa : x = a
      · subst hxa
        have hne : x ≠ b := by
          rintro rfl
          exact absurd h (Nat.lt_irrefl _)
        rw [List.idxOf_cons_self, List.idxOf_cons_ne _ hne]
        exact Nat.succ_pos _
      · by_cases hxb : x = b
        · subst hxb
          rw [List.filter_cons_of_pos hb, List.idxOf_cons_self] at h
          exact absurd h (Nat.not_lt_zero _)
        · rw [List.idxOf_cons_ne _ hxa, List.idxOf_cons_ne _ hxb]
          refine Nat.succ_lt_succ (ih ?_)
          by_cases hx : p x
          · rw [List.filter_cons_of_pos hx, List.idxOf_cons_ne _ hxa, List.idxOf_cons_ne _ hxb] at h
            exact Nat.lt_of_succ_lt_succ h
          · rwa [List.filter_cons_of_neg hx] at h

/-- Each element stays where it first appears.  By induction on the length, for what stays is a
filtered list. -/
theorem pairwise_eraseDups (xs : List String) :
    xs.eraseDups.Pairwise fun a b => xs.idxOf a < xs.idxOf b := by
  induction hn : xs.length using Nat.strongRecOn generalizing xs with
  | ind n ih =>
      cases xs with
      | nil => simp
      | cons x xs =>
          have hle : (xs.filter fun y => !y == x).length ≤ xs.length := List.length_filter_le ..
          have hlt : (xs.filter fun y => !y == x).length < n := by
            rw [← hn, List.length_cons]
            omega
          have hother : ∀ b ∈ (xs.filter fun y => !y == x).eraseDups, x ≠ b := by
            intro b hb hxb
            simpa [hxb] using List.mem_eraseDups.mp hb
          rw [List.eraseDups_cons, List.pairwise_cons]
          refine ⟨fun b hb => ?_, (ih _ hlt _ rfl).imp_of_mem fun {a b} ha hb hab => ?_⟩
          · rw [List.idxOf_cons_self, List.idxOf_cons_ne _ (hother b hb)]
            exact Nat.succ_pos _
          · rw [List.idxOf_cons_ne _ (hother a ha), List.idxOf_cons_ne _ (hother b hb)]
            have hkept (c : String) (hc : x ≠ c) : (!c == x) = true := by simpa using hc.symm
            exact Nat.succ_lt_succ
              (idxOf_lt_of_filter (hkept a (hother a ha)) (hkept b (hother b hb)) hab)

theorem nodup_eraseDups (xs : List String) : xs.eraseDups.Nodup :=
  (pairwise_eraseDups xs).imp fun hlt hsame => absurd hlt (by rw [hsame]; exact Nat.lt_irrefl _)

theorem nodup_targets (route : List RouteUnit) : (targets route).Nodup :=
  nodup_eraseDups _

theorem mem_targets {route : List RouteUnit} {target : String} :
    target ∈ targets route ↔ ∃ u ∈ route, u.target = target := by
  rw [targets, List.mem_eraseDups, List.mem_map]

/-- The units of a target with their places in the route. -/
theorem mem_placed {route : List RouteUnit} {target : String} {p : Placed RouteUnit} :
    p ∈ placed route target ↔ route[p.position]? = some p.unit ∧ p.unit.target = target := by
  rcases p with ⟨position, unit⟩
  simp only [placed, List.mem_map, List.mem_filter, Prod.exists, Placed.mk.injEq, beq_iff_eq]
  constructor
  · rintro ⟨u, i, ⟨hmem, htarget⟩, rfl, rfl⟩
    exact ⟨List.mem_zipIdx_iff_getElem?.mp hmem, htarget⟩
  · rintro ⟨hroute, htarget⟩
    exact ⟨unit, position, ⟨List.mem_zipIdx_iff_getElem?.mpr hroute, htarget⟩, rfl, rfl⟩

/-- Where a target stands in a route. -/
theorem positions_placed (route : List RouteUnit) (target : String) :
    (placed route target).map Placed.position =
      (List.range route.length).filter fun i => route[i]?.map RouteUnit.target == some target := by
  have hrange : List.range route.length = route.zipIdx.map Prod.snd := by
    rw [List.zipIdx_map_snd, List.range_eq_range']
  rw [hrange, List.filter_map, placed, List.map_map]
  refine congrArg (List.map Prod.snd) (List.filter_congr ?_)
  rintro ⟨u, i⟩ hu
  simp [List.mem_zipIdx_iff_getElem?.mp hu]

/-! ## Plans -/

theorem effectiveCap_pos (cap : Nat) : 0 < effectiveCap cap :=
  Nat.lt_of_lt_of_le Nat.zero_lt_one (Nat.le_max_right ..)

/-- A plan has the targets of a span and takes their units. -/
theorem exists_span {cap : Nat} {route : List RouteUnit} {p : Plan} (hp : p ∈ plans cap route) :
    p.units = p.targets.flatMap (placed route) ∧
      ∃ s ∈ Packing.spans (targets route).length (effectiveCap cap),
        p.targets = s.slice (targets route) := by
  rcases List.mem_map.mp hp with ⟨⟨ts, index⟩, hmem, rfl⟩
  have hts := List.mem_zipIdx_iff_getElem?.mp hmem
  rcases List.mem_map.mp (List.mem_of_getElem? hts) with ⟨s, hs, rfl⟩
  exact ⟨rfl, s, hs, rfl⟩

theorem targets_sublist {cap : Nat} {route : List RouteUnit} {p : Plan} (hp : p ∈ plans cap route) :
    p.targets.Sublist (targets route) := by
  rcases (exists_span hp).2 with ⟨s, -, htargets⟩
  exact htargets ▸ Packing.slice_sublist s _

theorem targets_ne_nil {cap : Nat} {route : List RouteUnit} {p : Plan} (hp : p ∈ plans cap route) :
    p.targets ≠ [] := by
  rcases (exists_span hp).2 with ⟨s, hs, htargets⟩
  exact htargets ▸ Packing.slice_ne_nil (effectiveCap_pos cap) hs

theorem targets_plans (cap : Nat) (route : List RouteUnit) :
    (plans cap route).map Plan.targets =
      (Packing.spans (targets route).length (effectiveCap cap)).map
        fun s => s.slice (targets route) := by
  rw [plans, List.map_map]
  exact List.zipIdx_map_fst ..

theorem flatMap_targets_plans (cap : Nat) (route : List RouteUnit) :
    (plans cap route).flatMap Plan.targets = targets route := by
  rw [List.flatMap_def, targets_plans, ← List.flatMap_def,
    Packing.flatMap_spans (effectiveCap_pos cap)]

theorem flatMap_plans (cap : Nat) (route : List RouteUnit) :
    (plans cap route).flatMap Plan.units = (targets route).flatMap (placed route) := by
  have hplan (row : List (List String × Nat)) :
      (row.map fun t => plan route t.2 t.1).flatMap Plan.units =
        (row.map Prod.fst).flatMap fun ts => ts.flatMap (placed route) := by
    rw [List.flatMap_map, List.flatMap_map]
    rfl
  have hrow := hplan ((Packing.spans (targets route).length (effectiveCap cap)).map fun s =>
    s.slice (targets route)).zipIdx
  rw [List.zipIdx_map_fst] at hrow
  calc
    (plans cap route).flatMap Plan.units
        = ((Packing.spans (targets route).length (effectiveCap cap)).map fun s =>
            s.slice (targets route)).flatMap fun ts => ts.flatMap (placed route) := hrow
    _ = ((Packing.spans (targets route).length (effectiveCap cap)).flatMap fun s =>
            s.slice (targets route)).flatMap (placed route) := by
          rw [List.flatMap_map, List.flatMap_assoc]
    _ = (targets route).flatMap (placed route) := by
          rw [Packing.flatMap_spans (effectiveCap_pos cap)]

/-- The planned units are those of the route, in another order. -/
theorem plans_positions_perm (cap : Nat) (route : List RouteUnit) :
    (((plans cap route).flatMap Plan.units).map Placed.position).Perm
      (List.range route.length) := by
  have hcovered : ∀ u ∈ route.zipIdx, u.1.target ∈ targets route := by
    rintro ⟨u, i⟩ hu
    exact mem_targets.mpr
      ⟨u, List.mem_of_getElem? (List.mem_zipIdx_iff_getElem?.mp hu), rfl⟩
  have hparts := Partition.perm_parts (fun u : RouteUnit × Nat => u.1.target)
    (nodup_targets route) hcovered
  have hpositions : (((targets route).flatMap (placed route)).map Placed.position) =
      ((targets route).flatMap fun t => route.zipIdx.filter fun u => u.1.target == t).map
        Prod.snd := by
    rw [List.map_flatMap, List.map_flatMap]
    apply List.flatMap_congr
    intro t _
    simp only [placed, List.map_map]
    rfl
  have hrange : route.zipIdx.map Prod.snd = List.range route.length := by
    rw [List.zipIdx_map_snd, List.range_eq_range']
  rw [flatMap_plans, hpositions, ← hrange]
  exact hparts.map Prod.snd

namespace Plan

variable {cap : Nat} {route : List RouteUnit} {p : Plan} {u : Placed RouteUnit}

theorem route_of_mem (hp : p ∈ plans cap route) (hu : u ∈ p.units) :
    route[u.position]? = some u.unit ∧ u.unit.target ∈ p.targets := by
  rw [(exists_span hp).1] at hu
  rcases List.mem_flatMap.mp hu with ⟨t, ht, hplaced⟩
  rcases mem_placed.mp hplaced with ⟨hroute, rfl⟩
  exact ⟨hroute, ht⟩

/-- A target of a plan has a unit there. -/
theorem exists_unit (hp : p ∈ plans cap route) {t : String} (ht : t ∈ p.targets) :
    ∃ w ∈ p.units, w.unit.target = t := by
  rcases mem_targets.mp ((targets_sublist hp).subset ht) with ⟨unit, hunit, htarget⟩
  rcases List.getElem?_of_mem hunit with ⟨i, hi⟩
  refine ⟨⟨i, unit⟩, ?_, htarget⟩
  rw [(exists_span hp).1]
  exact List.mem_flatMap.mpr ⟨t, ht, mem_placed.mpr ⟨hi, htarget⟩⟩

theorem units_ne_nil (hp : p ∈ plans cap route) : p.units ≠ [] := by
  rcases List.exists_mem_of_ne_nil _ (targets_ne_nil hp) with ⟨t, ht⟩
  rcases exists_unit hp ht with ⟨w, hw, -⟩
  exact List.ne_nil_of_mem hw

/-- A plan takes its units target by target, and those of one target as they stand in the route. -/
theorem positions_units (hp : p ∈ plans cap route) :
    p.units.map Placed.position = p.targets.flatMap fun t =>
      (List.range route.length).filter fun i => route[i]?.map RouteUnit.target == some t := by
  rw [(exists_span hp).1, List.map_flatMap]
  exact List.flatMap_congr fun t _ => positions_placed route t

theorem mode_eq_memory_iff (p : Plan) : p.mode = .memory ↔ 1 < p.targets.length := by
  by_cases hle : p.targets.length ≤ 1
  · simp [Plan.mode, Mode.ofTargetCount, hle]
  · simp [Plan.mode, Mode.ofTargetCount, hle, Nat.lt_of_not_le hle]

theorem mode_eq_stream_iff (p : Plan) : p.mode = .stream ↔ p.targets.length ≤ 1 := by
  by_cases hle : p.targets.length ≤ 1 <;> simp [Plan.mode, Mode.ofTargetCount, hle]

/-- A plan that streams has one target, and takes all units of it. -/
theorem units_of_stream (hp : p ∈ plans cap route) (hu : u ∈ p.units) (hm : p.mode = .stream) :
    p.units = placed route u.unit.target := by
  have htarget : u.unit.target ∈ p.targets := (route_of_mem hp hu).2
  have hle := p.mode_eq_stream_iff.mp hm
  rcases List.length_eq_one_iff.mp (Nat.le_antisymm hle (List.length_pos_of_mem htarget)) with
    ⟨t, ht⟩
  rw [ht, List.mem_singleton] at htarget
  rw [(exists_span hp).1, ht, htarget, List.flatMap_singleton]

/-- Units of one target stream, units of several are read at once. -/
theorem mode_eq_stream (hp : p ∈ plans cap route) (hu : u ∈ p.units) :
    p.mode = .stream ↔ ∀ w ∈ p.units, w.unit.target = u.unit.target := by
  have hnodup : p.targets.Nodup := (nodup_targets route).sublist (targets_sublist hp)
  constructor
  · intro hm w hw
    rw [units_of_stream hp hu hm] at hw
    exact (mem_placed.mp hw).2
  · intro hsame
    rw [mode_eq_stream_iff]
    have hall : ∀ t ∈ p.targets, t = u.unit.target := by
      intro t ht
      rcases exists_unit hp ht with ⟨w, hw, rfl⟩
      exact hsame w hw
    have hreplicate : p.targets = List.replicate p.targets.length u.unit.target :=
      List.eq_replicate_iff.mpr ⟨rfl, hall⟩
    rw [hreplicate] at hnodup
    simpa using List.nodup_replicate.mp hnodup

end Plan

end Grouping

end ScatterGather
