import ScatterGather.Grouping.Checked
import ScatterGather.Proofs.Grouping.Arranging

/-!
# Balancing — targets spread evenly, and places that fit into words

Division spreads a row of targets over its spans so that their sizes differ by at most one, and
however else the targets are spread over as many parts, the largest part is no smaller.  Every
number that planning comes upon on its way is bounded by the number of targets or by the cap, so
nothing that is counted in words is refused, and all that is sliced or looked up is there.

* `Packing.pairwise_spans`, `Packing.starts_spans` : how the spans of a row compare, and meet;
* `Packing.exists_part` : no other way of spreading targets has smaller parts only;
* `Packing.stretches?_ofNat` : spans that are cut in words are those cut in numbers;
* `Grouping.plans?_eq` : a route that can be counted is planned without a refusal;
* `Packing.targets_spread_evenly` : what the stretches of a row of targets are.
-/

namespace ScatterGather

namespace Packing

/-! ## Sizes -/

/-- Longer spans come first, and no two sizes differ by more than one. -/
theorem pairwise_sizes (targets cap : Nat) :
    (sizes targets cap).Pairwise fun size size' => size' ≤ size ∧ size ≤ size' + 1 := by
  by_cases hle : targets ≤ cap
  · simp [sizes, hle, List.pairwise_replicate]
  · simp only [sizes, hle, if_false]
    refine List.pairwise_append.mpr ⟨?_, ?_, ?_⟩
    · exact List.pairwise_replicate.mpr (.inr ⟨Nat.le_refl _, Nat.le_succ _⟩)
    · exact List.pairwise_replicate.mpr (.inr ⟨Nat.le_refl _, Nat.le_succ _⟩)
    · intro size hsize size' hsize'
      rw [List.eq_of_mem_replicate hsize, List.eq_of_mem_replicate hsize']
      exact ⟨Nat.le_succ _, Nat.le_refl _⟩

/-- Were all spans shorter than one of them is, targets would be left over. -/
theorem mul_lt_of_shorter {targets cap size n : Nat} (hcap : 0 < cap)
    (h : size ∈ sizes targets cap) (hn : n < size) : cap * n < targets := by
  by_cases hle : targets ≤ cap
  · simp only [sizes, hle, if_true, List.mem_replicate] at h
    have hzero : n = 0 := by omega
    rw [hzero, Nat.mul_zero]
    omega
  · have hdiv : cap * (targets / cap) + targets % cap = targets := Nat.div_add_mod targets cap
    simp only [sizes, hle, if_false, List.mem_append, List.mem_replicate] at h
    rcases h with ⟨hextra, hsize⟩ | ⟨-, hsize⟩
    · -- a longer span takes something that division leaves over
      have hmul : cap * n ≤ cap * (targets / cap) := Nat.mul_le_mul_left cap (by omega)
      omega
    · have hmul : cap * n < cap * (targets / cap) := Nat.mul_lt_mul_of_pos_left (by omega) hcap
      omega

/-- However targets are spread over at most `cap` parts, one of them is as large as any span. -/
theorem exists_part {targets cap size : Nat} {parts : List Nat} (hcap : 0 < cap)
    (h : size ∈ sizes targets cap) (hsum : parts.sum = targets) (hlength : parts.length ≤ cap) :
    ∃ part ∈ parts, size ≤ part := by
  by_contra hnone
  have hless : ∀ part ∈ parts, part ≤ size - 1 := by
    intro part hpart
    have hlt : part < size := Nat.not_le.mp fun hle => hnone ⟨part, hpart, hle⟩
    omega
  have hpos := size_pos hcap h
  have hlt : targets < targets := calc
    targets = parts.sum := hsum.symm
    _ ≤ parts.length * (size - 1) := List.sum_le_card_nsmul parts (size - 1) hless
    _ ≤ cap * (size - 1) := Nat.mul_le_mul_right (size - 1) hlength
    _ < targets := mul_lt_of_shorter hcap h (by omega)
  exact Nat.lt_irrefl _ hlt

/-! ## Spans -/

theorem map_size_layOut (start : Nat) (sizes : List Nat) :
    (layOut start sizes).map Span.size = sizes := by
  induction sizes generalizing start with
  | nil => rfl
  | cons size rest ih => rw [layOut, List.map_cons, ih]

/-- Longer spans come first, by one target at most. -/
theorem pairwise_spans (targets cap : Nat) :
    (spans targets cap).Pairwise fun s s' => s'.size ≤ s.size ∧ s.size ≤ s'.size + 1 := by
  have hsizes := pairwise_sizes targets cap
  rw [← map_size_layOut 0 (sizes targets cap), List.pairwise_map] at hsizes
  exact hsizes

theorem start_lt_stop {targets cap : Nat} {s : Span} (hcap : 0 < cap)
    (h : s ∈ spans targets cap) : s.start < s.stop :=
  Nat.lt_add_of_pos_right (size_pos hcap (of_mem_layOut h).1)

/-- No span goes beyond the last target. -/
theorem stop_le {targets cap : Nat} {s : Span} (hcap : 0 < cap) (h : s ∈ spans targets cap) :
    s.stop ≤ targets := by
  have hstop := (of_mem_layOut h).2
  rwa [sum_sizes hcap, Nat.zero_add] at hstop

/-- Each span starts where the one before it stops. -/
theorem starts_layOut (start : Nat) (sizes : List Nat) :
    (layOut start sizes).map Span.start ++ [start + sizes.sum] =
      start :: (layOut start sizes).map Span.stop := by
  induction sizes generalizing start with
  | nil => rfl
  | cons size rest ih =>
      rw [layOut, List.map_cons, List.cons_append, List.map_cons, List.sum_cons, ← Nat.add_assoc,
        ih]
      rfl

/-- The spans of a row reach from its first target to its last. -/
theorem starts_spans {targets cap : Nat} (hcap : 0 < cap) :
    (spans targets cap).map Span.start ++ [targets] = 0 :: (spans targets cap).map Span.stop := by
  have hmeet := starts_layOut 0 (sizes targets cap)
  rwa [sum_sizes hcap, Nat.zero_add] at hmeet

theorem layOut_singles (start count : Nat) :
    layOut start (List.replicate count 1) =
      (List.range' start count).map fun i => { start := i, size := 1 } := by
  induction count generalizing start with
  | zero => rfl
  | succ count ih => rw [List.replicate_succ, layOut, ih, List.range'_succ, List.map_cons]

/-- What the span with the number `i` takes. -/
def share (base extra i : Nat) : Nat :=
  base + if i < extra then 1 else 0

theorem map_share {extra cap : Nat} (base : Nat) (hle : extra ≤ cap) :
    (List.range cap).map (share base extra) =
      List.replicate extra (base + 1) ++ List.replicate (cap - extra) base := by
  have hfront : (List.range extra).map (share base extra) = List.replicate extra (base + 1) := by
    refine List.eq_replicate_iff.mpr ⟨by simp, fun size hsize => ?_⟩
    rcases List.mem_map.mp hsize with ⟨i, hi, rfl⟩
    rw [share, if_pos (List.mem_range.mp hi)]
  have hback : ((List.range (cap - extra)).map (extra + ·)).map (share base extra) =
      List.replicate (cap - extra) base := by
    refine List.eq_replicate_iff.mpr ⟨by simp, fun size hsize => ?_⟩
    rcases List.mem_map.mp hsize with ⟨i, hi, rfl⟩
    rcases List.mem_map.mp hi with ⟨j, -, rfl⟩
    rw [share, if_neg (by omega), Nat.add_zero]
  rw [← hfront, ← hback, ← List.map_append, ← List.range_add, Nat.add_sub_cancel' hle]

end Packing

/-! ## Words -/

namespace Word

variable {m n : Nat}

theorem ofNat?_eq (hn : n < UInt64.size) : ofNat? n = some (.ofNat n) :=
  if_pos hn

theorem add?_ofNat (h : m + n < UInt64.size) :
    add? (.ofNat m) (.ofNat n) = some (.ofNat (m + n)) := by
  have hm : (UInt64.ofNat m).toNat = m := UInt64.toNat_ofNat_of_lt' (by omega)
  have hn : (UInt64.ofNat n).toNat = n := UInt64.toNat_ofNat_of_lt' (by omega)
  rw [add?, if_pos (by rwa [hm, hn]), UInt64.ofNat_add]

theorem sub?_ofNat (hm : m < UInt64.size) (hle : n ≤ m) :
    sub? (.ofNat m) (.ofNat n) = some (.ofNat (m - n)) := by
  have hwords : UInt64.ofNat n ≤ UInt64.ofNat m :=
    (UInt64.ofNat_le_iff_le (by omega) hm).mpr hle
  rw [sub?, if_pos hwords, UInt64.ofNat_sub hle]

theorem ofNat_ne_zero (hn : n < UInt64.size) (hpos : 0 < n) : UInt64.ofNat n ≠ 0 := by
  intro hzero
  have hnat := congrArg UInt64.toNat hzero
  rw [UInt64.toNat_ofNat_of_lt' hn] at hnat
  exact Nat.ne_of_gt hpos hnat

theorem div?_ofNat (hm : m < UInt64.size) (hn : n < UInt64.size) (hpos : 0 < n) :
    div? (.ofNat m) (.ofNat n) = some (.ofNat (m / n)) := by
  rw [div?, if_neg (ofNat_ne_zero hn hpos), UInt64.ofNat_div hm hn]

theorem mod?_ofNat (hm : m < UInt64.size) (hn : n < UInt64.size) (hpos : 0 < n) :
    mod? (.ofNat m) (.ofNat n) = some (.ofNat (m % n)) := by
  rw [mod?, if_neg (ofNat_ne_zero hn hpos), UInt64.ofNat_mod hm hn]

theorem below_ofNat (hn : n < UInt64.size) : below (.ofNat n) = (List.range n).map UInt64.ofNat := by
  rw [below, UInt64.toNat_ofNat_of_lt' hn]

end Word

/-! ## Stretches -/

/-- Where every step has a result, so has the whole. -/
theorem mapM_of_some {α β : Type} {f : α → Option β} {g : α → β} {xs : List α}
    (h : ∀ x ∈ xs, f x = some (g x)) : xs.mapM f = some (xs.map g) := by
  induction xs with
  | nil => rfl
  | cons x xs ih =>
      rw [List.mapM_cons, h x (List.mem_cons_self ..),
        ih fun y hy => h y (List.mem_cons_of_mem x hy)]
      rfl

/-- A span whose places are written as words. -/
def Span.stretch (s : Span) : Stretch :=
  { start := .ofNat s.start, stop := .ofNat s.stop }

namespace Span

variable {s : Span}

theorem start_le_stop (s : Span) : s.start ≤ s.stop :=
  Nat.le_add_right ..

theorem toNat_stretch (h : s.stop < UInt64.size) :
    s.stretch.start.toNat = s.start ∧ s.stretch.stop.toNat = s.stop :=
  ⟨UInt64.toNat_ofNat_of_lt' (Nat.lt_of_le_of_lt s.start_le_stop h), UInt64.toNat_ofNat_of_lt' h⟩

theorem span_stretch (h : s.stop < UInt64.size) : s.stretch.span = s := by
  rw [Stretch.span, (toNat_stretch h).1, (toNat_stretch h).2, stop, Nat.add_sub_cancel_left]

/-- A stretch that ends within a list can be sliced out of it. -/
theorem slice?_stretch {α : Type} {xs : List α} (h : s.stop < UInt64.size)
    (hle : s.stop ≤ xs.length) : s.stretch.slice? xs = some (s.slice xs) := by
  have hsize : s.stretch.size? = some (.ofNat s.size) := by
    rw [Stretch.size?, stretch, Word.sub?_ofNat h s.start_le_stop, stop, Nat.add_sub_cancel_left]
  have hcount : (UInt64.ofNat s.size).toNat = s.size :=
    UInt64.toNat_ofNat_of_lt' (Nat.lt_of_le_of_lt (Nat.le_add_left ..) h)
  rw [Stretch.slice?, hsize]
  simp only [bind, Option.bind, toNat_stretch h, hcount, if_pos hle, slice]

theorem slice_map {α β : Type} (s : Span) (f : α → β) (xs : List α) :
    s.slice (xs.map f) = (s.slice xs).map f := by
  rw [slice, slice, List.map_take, List.map_drop]

end Span

namespace Packing

variable {targets cap : Nat}

theorem single?_ofNat {i : Nat} (h : i + 1 < UInt64.size) :
    single? (.ofNat i) = some (Span.stretch ⟨i, 1⟩) := by
  have hsum : Word.add? (.ofNat i) 1 = some (.ofNat (i + 1)) := Word.add?_ofNat (n := 1) h
  rw [single?, hsum]
  rfl

/-- Cutting in words lays out the shares.  By induction on the numbers; what is still to be laid
out bounds every sum. -/
theorem cut?_ofNat {base extra start : Nat} {numbers : List Nat} (hextra : extra < UInt64.size)
    (hnumbers : ∀ i ∈ numbers, i < UInt64.size)
    (hfits : start + (numbers.map (share base extra)).sum < UInt64.size) :
    cut? (.ofNat base) (.ofNat extra) (.ofNat start) (numbers.map .ofNat) =
      some ((layOut start (numbers.map (share base extra))).map Span.stretch) := by
  induction numbers generalizing start with
  | nil => rfl
  | cons i rest ih =>
      rw [List.map_cons, List.sum_cons] at hfits
      -- numbers that fit into words compare as the words do
      have hone : (if UInt64.ofNat i < UInt64.ofNat extra then 1 else 0 : UInt64) =
          .ofNat (if i < extra then 1 else 0) := by
        have hi := hnumbers i (List.mem_cons_self ..)
        simp only [UInt64.ofNat_lt_iff_lt hi hextra]
        split <;> rfl
      have hsize : Word.add? (.ofNat base) (if UInt64.ofNat i < UInt64.ofNat extra then 1 else 0) =
          some (.ofNat (share base extra i)) := by
        rw [hone]
        exact Word.add?_ofNat (by rw [share] at hfits; omega)
      have hstop : Word.add? (.ofNat start) (.ofNat (share base extra i)) =
          some (.ofNat (start + share base extra i)) := Word.add?_ofNat (by omega)
      have hrest := @ih (start + share base extra i)
        (fun j hj => hnumbers j (List.mem_cons_of_mem i hj)) (by omega)
      rw [List.map_cons, cut?, hsize]
      simp only [bind, Option.bind, hstop, hrest]
      rfl

/-- Spans that are cut in words are those that are cut in numbers. -/
theorem stretches?_ofNat (hcap : 0 < cap) (htargets : targets < UInt64.size)
    (hcapfits : cap < UInt64.size) :
    stretches? (.ofNat targets) (.ofNat cap) = some ((spans targets cap).map Span.stretch) := by
  have hcompare := UInt64.ofNat_le_iff_le htargets hcapfits
  by_cases hle : targets ≤ cap
  · have hspans : spans targets cap = (List.range targets).map fun i => ⟨i, 1⟩ := by
      rw [spans, sizes, if_pos hle, layOut_singles, List.range_eq_range']
    have hsingles : ∀ i ∈ List.range targets,
        (single? ∘ UInt64.ofNat) i = some (Span.stretch ⟨i, 1⟩) := by
      intro i hi
      have hlt := List.mem_range.mp hi
      exact single?_ofNat (by omega)
    rw [stretches?, if_pos (hcompare.mpr hle), Word.below_ofNat htargets, List.mapM_map,
      mapM_of_some hsingles, hspans, List.map_map]
    rfl
  · have hmod : targets % cap < cap := Nat.mod_lt targets hcap
    have hsizes : sizes targets cap =
        (List.range cap).map (share (targets / cap) (targets % cap)) := by
      rw [sizes, if_neg hle, map_share _ (Nat.le_of_lt hmod)]
    have hsum : (sizes targets cap).sum = targets := sum_sizes hcap
    rw [hsizes] at hsum
    have hcut : cut? (.ofNat (targets / cap)) (.ofNat (targets % cap)) (.ofNat 0)
        ((List.range cap).map .ofNat) = some ((spans targets cap).map Span.stretch) := by
      rw [spans, hsizes]
      refine cut?_ofNat (by omega) (fun i hi => ?_) (by omega)
      exact Nat.lt_trans (List.mem_range.mp hi) hcapfits
    rw [stretches?, if_neg (fun h => hle (hcompare.mp h)),
      Word.div?_ofNat htargets hcapfits hcap, Word.mod?_ofNat htargets hcapfits hcap,
      Word.below_ofNat hcapfits]
    exact hcut

end Packing

namespace Grouping

variable {route : List RouteUnit}

/-! ## Planning -/

/-- All positions of a bucket can be looked up. -/
theorem plan?_eq (route : List RouteUnit) (index : Nat) (ts : List String) :
    plan? route index (ts.map (bucket route)) = some (plan route index ts) := by
  have hpositions : (ts.map (bucket route)).flatMap Prod.snd =
      (ts.flatMap (placed route)).map Placed.position := by
    rw [List.flatMap_map, List.map_flatMap]
    rfl
  have htargets : (ts.map (bucket route)).map Prod.fst = ts := by
    rw [List.map_map]
    exact List.map_id ts
  -- what stands in a bucket was placed there from the route
  have hlookup : ∀ p ∈ ts.flatMap (placed route),
      ((fun position => route[position]?.map fun unit => Placed.mk position unit) ∘
        Placed.position) p = some p := by
    intro p hp
    rcases List.mem_flatMap.mp hp with ⟨t, -, hplaced⟩
    simp only [Function.comp, (mem_placed.mp hplaced).1, Option.map_some]
  have hunits := mapM_of_some hlookup
  rw [← List.mapM_map, ← hpositions, List.map_id'] at hunits
  simp only [plan?, hunits, bind, Option.bind, htargets]
  rfl

theorem effectiveCap_lt (cap : UInt64) : effectiveCap cap.toNat < UInt64.size :=
  Nat.max_lt.mpr ⟨cap.toNat_lt_size, by decide⟩

theorem max_one_eq (cap : UInt64) : max cap 1 = .ofNat (effectiveCap cap.toNat) := by
  rw [← UInt64.toNat_inj, UInt64.toNat_max, UInt64.toNat_ofNat_of_lt' (effectiveCap_lt cap)]
  rfl

/-- A route is planned in words as it is planned in numbers, if its targets can be counted. -/
theorem plans?_eq (cap : UInt64) (hfits : (targets route).length < UInt64.size) :
    plans? cap route = some (plans cap.toNat route) := by
  have hcap := effectiveCap_pos cap.toNat
  have hcount : Word.ofNat? ((targets route).map (bucket route)).length =
      some (.ofNat (targets route).length) := by
    rw [List.length_map, Word.ofNat?_eq hfits]
  have hstretches := Packing.stretches?_ofNat hcap hfits (effectiveCap_lt cap)
  rw [← max_one_eq] at hstretches
  -- no span goes beyond the last target, and there are as many buckets as targets
  have hslices : ∀ s ∈ Packing.spans (targets route).length (effectiveCap cap.toNat),
      ((fun r : Stretch => r.slice? ((targets route).map (bucket route))) ∘ Span.stretch) s =
        some ((s.slice (targets route)).map (bucket route)) := by
    intro s hs
    have hstop := Packing.stop_le hcap hs
    rw [← Span.slice_map]
    exact Span.slice?_stretch (by omega) (by rwa [List.length_map])
  have hrows := mapM_of_some hslices
  rw [← List.mapM_map] at hrows
  have hplans : ∀ t ∈ ((Packing.spans (targets route).length (effectiveCap cap.toNat)).map
      fun s => s.slice (targets route)).zipIdx,
      ((fun t : List (String × List Nat) × Nat => plan? route t.2 t.1) ∘
        Prod.map (List.map (bucket route)) id) t = some (plan route t.2 t.1) :=
    fun t _ => plan?_eq route t.2 t.1
  have hplanned := mapM_of_some hplans
  rw [← List.mapM_map, ← List.zipIdx_map, List.map_map] at hplanned
  simp only [plans?, hcount, hstretches, hrows, bind, Option.bind]
  exact hplanned

end Grouping

namespace Packing

open Grouping (plans plans?)

/-- A row of targets is cut into as many stretches as there may be, or into one for each target if
there are fewer.  None is empty, each starts where the one before it stops, and together they reach
from the first target to the last.  Longer ones come first, by one target at most, and however else
the targets are spread over as many parts, one of these is as large as the largest stretch.  No
step on the way is refused, nor is one that planning takes with the stretches of a route. -/
theorem targets_spread_evenly (targets cap : UInt64) (hcap : 0 < cap) :
    ∃ stretches, stretches? targets cap = some stretches ∧
      stretches.map Stretch.span = spans targets.toNat cap.toNat ∧
      stretches.length = min targets.toNat cap.toNat ∧
      (∀ r ∈ stretches, r.start < r.stop) ∧
      stretches.map Stretch.start ++ [targets] = 0 :: stretches.map Stretch.stop ∧
      (stretches.Pairwise fun r r' =>
        r'.span.size ≤ r.span.size ∧ r.span.size ≤ r'.span.size + 1) ∧
      (∀ parts : List Nat, parts.sum = targets.toNat → parts.length ≤ cap.toNat →
        ∀ r ∈ stretches, ∃ part ∈ parts, r.span.size ≤ part) ∧
      ∀ route : List RouteUnit, (Grouping.targets route).length = targets.toNat →
        plans? cap route = some (plans cap.toNat route) := by
  have hpos : 0 < cap.toNat := UInt64.lt_iff_toNat_lt.mp hcap
  have hcut := stretches?_ofNat hpos targets.toNat_lt_size cap.toNat_lt_size
  rw [UInt64.ofNat_toNat, UInt64.ofNat_toNat] at hcut
  have hfits : ∀ s ∈ spans targets.toNat cap.toNat, s.stop < UInt64.size :=
    fun s hs => Nat.lt_of_le_of_lt (stop_le hpos hs) targets.toNat_lt_size
  have hspan : ∀ s ∈ spans targets.toNat cap.toNat, s.stretch.span = s :=
    fun s hs => Span.span_stretch (hfits s hs)
  refine ⟨_, hcut, ?_, ?_, ?_, ?_, ?_, ?_, ?_⟩
  · rw [List.map_map]
    exact (List.map_congr_left hspan).trans (List.map_id _)
  · rw [List.length_map, spans, length_layOut, length_sizes hpos]
  · intro r hr
    rcases List.mem_map.mp hr with ⟨s, hs, rfl⟩
    have hlt := start_lt_stop hpos hs
    exact (UInt64.ofNat_lt_iff_lt (Nat.lt_trans hlt (hfits s hs)) (hfits s hs)).mpr hlt
  · have hmeet := congrArg (List.map UInt64.ofNat) (@starts_spans targets.toNat _ hpos)
    simp only [List.map_append, List.map_cons, List.map_nil, List.map_map,
      UInt64.ofNat_toNat] at hmeet
    rw [List.map_map, List.map_map]
    exact hmeet
  · rw [List.pairwise_map]
    refine (pairwise_spans ..).imp_of_mem fun {s s'} hs hs' h => ?_
    rwa [hspan s hs, hspan s' hs']
  · intro parts hsum hlength r hr
    rcases List.mem_map.mp hr with ⟨s, hs, rfl⟩
    rw [hspan s hs]
    exact exists_part hpos (of_mem_layOut hs).1 hsum hlength
  · intro route hroute
    exact Grouping.plans?_eq cap (hroute ▸ targets.toNat_lt_size)

/-- The three targets of a route on two connections, where one target on one and two on the other
would be no better. -/
theorem targets_spread_evenly_crossed :
    (0 : UInt64) < 2 ∧ (Grouping.targets Grouping.crossed).length = 3 ∧
      stretches? 3 2 = some [⟨0, 2⟩, ⟨2, 3⟩] ∧ (∃ part ∈ [1, 2], 2 ≤ part) ∧
      plans? 2 Grouping.crossed = some (plans 2 Grouping.crossed) := by
  have htargets : (Grouping.targets Grouping.crossed).length = (3 : UInt64).toNat := by decide
  have hcut : stretches? 3 2 = some [⟨0, 2⟩, ⟨2, 3⟩] := by decide
  rcases targets_spread_evenly 3 2 (by decide) with
    ⟨stretches, hsome, -, -, -, -, -, hparts, hplans⟩
  obtain rfl := Option.some.inj (hcut.symm.trans hsome)
  refine ⟨by decide, htargets, hcut, ?_, hplans _ htargets⟩
  exact hparts [1, 2] (by decide) (by decide) ⟨0, 2⟩ (List.mem_cons_self ..)

/-- As many targets as a word can count. -/
example : stretches? 18446744073709551615 2 =
    some [⟨0, 9223372036854775808⟩, ⟨9223372036854775808, 18446744073709551615⟩] := by
  decide

end Packing

end ScatterGather
