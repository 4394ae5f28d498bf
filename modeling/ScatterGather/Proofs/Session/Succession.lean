import ScatterGather.Proofs.Engine.Returns
import ScatterGather.Proofs.Session.Tracking

/-!
# Succession — queries of one executor, each begun when those before it have returned

A query that returns with all its units run has also registered all that they opened, so nothing of
it can come after a query that begins later.  The entries of a registry are then those of the first
query, in some order, those of the second, and so on, whatever calls of other executors go on.

* `History.filterMap_effects_of_sorted` : effects that are sorted by their calls;
* `Opened.Unhindered` : calls all of whose units run;
* `Journal.queries` : the queries of an executor, with their numbers;
* `Session.successive?` : the steps of a session one of whose executors runs one query at a time;
* `Session.InTurn` : its queries act one after the other;
* `Session.entries_in_turn` : so do their entries stand in the registry.
-/

namespace ScatterGather

/-! ## Effects by call -/

namespace History

variable {κ α γ : Type} {f : κ → Option γ}

/-- What `f` picks of the effects is made of what it picks of some occurrences. -/
theorem filterMap_effects (h : History κ α) : (effects h).filterMap f =
    (h.filter fun o => (o.effect?.bind f).isSome).filterMap fun o => o.effect?.bind f := by
  rw [effects, List.filterMap_filterMap, List.filterMap_filter]
  refine List.filterMap_congr fun o _ => ?_
  cases hpicked : o.effect?.bind f <;> simp

/-- If no call that something is picked from comes behind a later one, all that is picked is that of
the first call, that of the second, and so on. -/
theorem filterMap_effects_of_sorted {h : History κ α} {n : Nat}
    (sorted : ∀ {first second : Occurrence κ α}, [first, second].Sublist h →
      (first.effect?.bind f).isSome → (second.effect?.bind f).isSome →
      first.site.call ≤ second.site.call)
    (covered : ∀ o ∈ h, o.site.call < n) : (effects h).filterMap f =
      (List.range n).flatMap fun k => (effects (ofCall k h)).filterMap f := by
  have hsorted : (h.filter fun o => (o.effect?.bind f).isSome).Pairwise
      fun first second => first.site.call ≤ second.site.call := by
    refine List.pairwise_iff_forall_sublist.mpr fun {first second} hsub => ?_
    have hfirst := (List.mem_filter.mp (hsub.subset (List.mem_cons_self ..))).2
    have hsecond := (List.mem_filter.mp
      (hsub.subset (List.mem_cons_of_mem _ (List.mem_cons_self ..)))).2
    exact sorted (hsub.trans List.filter_sublist) hfirst hsecond
  have hparts := Partition.eq_parts_of_sorted (fun o : Occurrence κ α => o.site.call) hsorted
    fun o ho => covered o (List.mem_filter.mp ho).1
  rw [filterMap_effects, ← hparts, List.filterMap_flatMap]
  refine List.flatMap_congr fun k _ => ?_
  rw [filterMap_effects, ofCall, List.filter_filter, List.filter_filter]
  simp only [Bool.and_comm]

end History

/-! ## Calls -/

namespace Opened

/-- Whether a call is a query of executor `x`. -/
def isQueryOf (o : Opened) (x : Nat) : Bool :=
  decide (o.assignment.registry = x ∧ o.assignment.kind = .query)

/-- Nothing keeps a unit of the call from running. -/
structure Unhindered (o : Opened) (b : Backend) : Prop where
  calm : ∀ u ∈ o.units, ¬ (o.assignment.work b u).Panics
  /-- A failure leaves the other units alone, or there is none. -/
  patient : o.policy = .bestEffort ∨ ∀ u ∈ o.units, ¬ (o.assignment.work b u).Fails

end Opened

/-- The queries of executor `x` in the order in which they were begun, with their numbers. -/
def Journal.queries (j : Journal) (x : Nat) : List (Opened × Nat) :=
  j.calls.zipIdx.filter fun q => q.1.isQueryOf x

theorem Journal.mem_queries {j : Journal} {x k : Nat} {o : Opened} :
    (o, k) ∈ j.queries x ↔ j.calls[k]? = some o ∧ o.isQueryOf x = true := by
  rw [queries, List.mem_filter, List.mem_zipIdx_iff_getElem?]

/-- Call number `k`, on page `o`, was through with its units before call number `k'` did
anything. -/
def Journal.Ahead (j : Journal) (b : Backend) (o : Opened) (k k' : Nat) : Prop :=
  ∃ before after, j.past = before ++ after ∧
    (History.effects (History.ofCall k before)).Perm
      (o.units.flatMap fun u => (o.assignment.work b u).effects) ∧
    ∀ occurrence ∈ before, occurrence.site.call ≠ k'

theorem Journal.Ahead.later {j j' : Journal} {b : Backend} {o : Opened} {k k' : Nat}
    {more : History Effect Output} (h : j.Ahead b o k k') (hpast : j'.past = j.past ++ more) :
    j'.Ahead b o k k' := by
  rcases h with ⟨before, after, hsplit, hdone, hfresh⟩
  exact ⟨before, after ++ more, by rw [hpast, hsplit, List.append_assoc], hdone, hfresh⟩

/-- Once the call is through with its units, all that it has done precedes the other call. -/
theorem Journal.Ahead.split {j : Journal} {b : Backend} {o : Opened} {k k' : Nat}
    (h : j.Ahead b o k k') (hall : (History.effects (History.ofCall k j.past)).Perm
      (o.units.flatMap fun u => (o.assignment.work b u).effects)) :
    ∃ before after, j.past = before ++ after ∧
      (∀ occurrence ∈ after, occurrence.site.call = k → ∀ x, occurrence.effect? ≠ some x) ∧
      ∀ occurrence ∈ before, occurrence.site.call ≠ k' := by
  rcases h with ⟨before, after, hsplit, hdone, hfresh⟩
  refine ⟨before, after, hsplit, ?_, hfresh⟩
  rw [hsplit, History.ofCall_append, History.effects_append] at hall
  have hlength := hall.length_eq.trans hdone.length_eq.symm
  rw [List.length_append] at hlength
  have hnone : History.effects (History.ofCall k after) = [] :=
    List.eq_nil_of_length_eq_zero (by omega)
  intro occurrence hmem hcall x hx
  have hin : x ∈ History.effects (History.ofCall k after) :=
    List.mem_filterMap.mpr ⟨occurrence, List.mem_filter.mpr ⟨hmem, by simp [hcall]⟩, hx⟩
  rw [hnone] at hin
  cases hin

namespace Journal.Tells

variable {β γ : Type} {s : Session β} {j : Journal} {threads k x : Nat} {o : Opened}
  {f : Effect → Option γ} {entry : Placed BoundUnit → γ}

/-- Once a call that nothing hinders has returned, all its units have run to their end. -/
theorem effects_of_returned (h : j.Tells threads s) (ho : j.calls[k]? = some o)
    (hfree : o.Unhindered s.backend) (hreturned : s.engine.isReturned k = true) :
    (History.effects (History.ofCall k j.past)).Perm
      (o.units.flatMap fun u => (o.assignment.work s.backend u).effects) := by
  have hnum := h.task_numbered ho
  have hr : (s.engine.withWorld j.past).isReturned (o.task s.backend k).call = true := hreturned
  rcases (h.serves k o ho).returned hr with ⟨sh, answer, hhistory, v, hanswered, -⟩
  have hcalm : ∀ u ∈ (o.task s.backend k).units, ¬ u.Panics := by
    rw [o.task_units]
    rintro w hw hpanics
    rcases List.mem_map.mp hw with ⟨u, hu, rfl⟩
    exact hfree.calm u hu hpanics
  have hcomplete : sh.Complete (o.task s.backend k) := by
    rcases hfree.patient with hpatient | hnone
    · exact hanswered.complete_of_patient v hnum hpatient hcalm
    · refine (hanswered.ok_of_succeeds v hnum fun w hw => ?_).1
      refine Work.succeeds_of_not ?_ (hcalm w hw)
      rw [o.task_units] at hw
      rcases List.mem_map.mp hw with ⟨u, hu, rfl⟩
      exact hnone u hu
  have hperm := hcomplete.effects_perm v
  rw [o.task_units, List.flatMap_map, hhistory] at hperm
  exact hperm

/-- What such a call enters in a registry. -/
theorem entries_of_returned (h : j.Tells threads s) (ho : j.calls[k]? = some o)
    (hf : o.assignment.Enters s.backend x f entry) (hfree : o.Unhindered s.backend)
    (hreturned : s.engine.isReturned k = true) :
    ((History.effects (History.ofCall k j.past)).filterMap f).Perm
      ((o.units.filter (o.assignment.tracks s.backend x)).map entry) := by
  have hperm := (h.effects_of_returned ho hfree hreturned).filterMap f
  rwa [← List.flatMap_map, hf.units] at hperm

/-- Whatever was entered in a registry was entered by a query of its executor. -/
theorem query_of_entry (h : j.Tells threads s)
    (hf : ∀ a, Assignment.Enters a s.backend x f entry) {occurrence : Occurrence Effect Output}
    (hmem : occurrence ∈ j.past) (hentry : (occurrence.effect?.bind f).isSome) :
    ∃ o, j.calls[occurrence.site.call]? = some o ∧ o.isQueryOf x = true := by
  rcases h.exists_page ((Engine.sites_of_run h.recorded).2 occurrence hmem) with ⟨o, ho⟩
  refine ⟨o, ho, ?_⟩
  by_contra hnot
  have hnone := h.entries_eq_nil ho (hf _) fun hq => hnot (decide_eq_true hq)
  rw [History.effects, List.filterMap_filterMap, List.filterMap_eq_nil_iff] at hnone
  have hown : occurrence ∈ History.ofCall occurrence.site.call j.past :=
    List.mem_filter.mpr ⟨hmem, by simp⟩
  rw [hnone occurrence hown] at hentry
  cases hentry

end Journal.Tells

/-! ## Steps -/

namespace Session

variable {β γ : Type} {s s' : Session β} {j j' : Journal} {threads k x : Nat} {m : Step β}
  {o : Opened}

/-- Whether all queries of executor `x` have returned. -/
def isFree (s : Session β) (x : Nat) : Bool :=
  s.issued.zipIdx.all fun (i, k) =>
    !decide (i.executor = x ∧ i.kind = .query) || s.engine.isReturned k

theorem isReturned_of_isFree (h : j.Tells threads s) (hfree : s.isFree x = true)
    (ho : j.calls[k]? = some o) (hquery : o.isQueryOf x = true) :
    s.engine.isReturned k = true := by
  have hissued : (o.issue, k) ∈ s.issued.zipIdx :=
    List.mem_zipIdx_iff_getElem?.mpr (h.issue_eq ho)
  have hentry := List.all_eq_true.mp hfree _ hissued
  have hown : o.issue.executor = x ∧ o.issue.kind = .query := of_decide_eq_true hquery
  simpa [hown] using hentry

/-- The steps of a session in which executor `x` begins a query only when all its queries have
returned. -/
def successive? (x : Nat) (r : Session β × Journal) (m : Step β) : Option (Session β × Journal) :=
  match m with
  | .begin y .query => if y = x ∧ r.1.isFree x = false then none else journaled? r m
  | _ => journaled? r m

theorem successive?_eq_some {r r' : Session β × Journal} (h : successive? x r m = some r') :
    journaled? r m = some r' ∧ (m = .begin x .query → r.1.isFree x = true) := by
  cases m with
  | begin y kind =>
      cases kind with
      | query =>
          by_cases hy : y = x ∧ r.1.isFree x = false
          · simp [successive?, hy] at h
          · simp only [successive?, hy, if_false] at h
            refine ⟨h, ?_⟩
            rintro ⟨⟩
            simpa using hy
      | update | execute => exact ⟨h, by simp⟩
  | engine | conclude | insert | remove | clear | setRethrow | beginSweep | sweep =>
      exact ⟨h, by simp⟩

theorem journaled_of_successive {r r' : Session β × Journal} (h : Run (successive? x) r r') :
    Run journaled? r r' := by
  induction h with
  | refl => exact .refl
  | tail _ hstep ih =>
      rcases hstep with ⟨m, hm⟩
      exact ih.snoc (successive?_eq_some hm).1

/-! ## Turns -/

/-- Of two queries of executor `x` the earlier one is ahead of the later one, unless something
hinders it. -/
def InTurn (x : Nat) (s : Session β) (j : Journal) : Prop :=
  ∀ k k' o o', k < k' → j.calls[k]? = some o → j.calls[k']? = some o' →
    o.isQueryOf x = true → o'.isQueryOf x = true → o.Unhindered s.backend →
    j.Ahead s.backend o k k'

theorem opened?_assignment {e : Executor} {kind : EntryPoint} (h : s.opened? x e kind = some o) :
    o.assignment = s.assignment x e kind := by
  rw [opened?] at h
  split at h
  · cases h
    rfl
  · cases h

/-- The turn of a query comes when those before it have returned. -/
theorem inTurn_step (h : s.InTurn x j) (htells : j.Tells threads s) (hstep : s.step? m = some s')
    (hm : m = .begin x .query → s.isFree x = true) : s'.InTurn x (j.after s m) := by
  intro k k' o o' hlt ho ho' hquery hquery' hfree
  rw [(step?_fixed hstep).1] at hfree ⊢
  cases m with
  | begin y kind =>
      cases hopened : s.executors[y]?.bind fun e => s.opened? y e kind with
      | none =>
          have hsame : j.after s (.begin y kind) = j := by simp [Journal.after, hopened]
          rw [hsame] at ho ho' ⊢
          exact h k k' o o' hlt ho ho' hquery hquery' hfree
      | some page =>
          have hgrown : j.after s (.begin y kind) = { j with calls := j.calls ++ [page] } := by
            simp [Journal.after, hopened]
          rw [hgrown] at ho ho' ⊢
          have hearlier : j.calls[k]? = some o := by
            have hshort : k < j.calls.length := by
              have hle := (List.getElem?_eq_some_iff.mp ho').1
              simp only [List.length_append, List.length_singleton] at hle
              omega
            rwa [List.getElem?_append_left hshort] at ho
          rcases Journal.page_cases ho' with hold | ⟨hlast, rfl⟩
          · exact h k k' o o' hlt hearlier hold hquery hquery' hfree
          · -- the query that begins has done nothing yet, and the other one has returned
            rcases Option.bind_eq_some_iff.mp hopened with ⟨e, -, hpage⟩
            have hassigned := opened?_assignment hpage
            have hbegun : y = x ∧ kind = .query := by
              have hown := of_decide_eq_true hquery'
              rwa [hassigned] at hown
            rcases hbegun with ⟨rfl, rfl⟩
            have hreturned := isReturned_of_isFree htells (hm rfl) hearlier hquery
            refine ⟨j.past, [], (List.append_nil _).symm,
              htells.effects_of_returned hearlier hfree hreturned, ?_⟩
            intro occurrence hmem
            rw [hlast, htells.length_eq]
            exact Nat.ne_of_lt ((Engine.sites_of_run htells.recorded).2 occurrence hmem)
  | engine m => exact (h k k' o o' hlt ho ho' hquery hquery' hfree).later rfl
  | conclude | insert | remove | clear | setRethrow | beginSweep | sweep =>
      exact h k k' o o' hlt ho ho' hquery hquery' hfree

theorem inTurn_of_run {backend : Backend} {executors : List Executor} {recorders : Nat}
    (h : Run (successive? x) (Session.start threads backend executors recorders, .empty) (s, j)) :
    s.InTurn x j := by
  have hrun : j.Tells threads s ∧ s.InTurn x j := by
    refine Run.preserves (P := fun r : Session β × Journal =>
      r.2.Tells threads r.1 ∧ r.1.InTurn x r.2) ?_ h
        ⟨tells_start threads backend executors recorders, by simp [InTurn, Journal.empty]⟩
    rintro ⟨s, j⟩ ⟨s', j'⟩ m ⟨htells, hturn⟩ hstep
    rcases successive?_eq_some hstep with ⟨hjournaled, hfree⟩
    rcases journaled?_eq_some.mp hjournaled with ⟨hm, rfl⟩
    exact ⟨htells.step hm, inTurn_step hturn htells hm hfree⟩
  exact hrun.2

/-! ## Entries -/

variable {f : Effect → Option γ} {entry : Placed BoundUnit → γ}

/-- Of two entries the one that comes first is not that of the later query. -/
theorem call_le_of_entries (h : j.Tells threads s) (hturn : s.InTurn x j)
    (hfree : s.isFree x = true) (hqueries : ∀ q ∈ j.queries x, q.1.Unhindered s.backend)
    (hf : ∀ a, Assignment.Enters a s.backend x f entry)
    {first second : Occurrence Effect Output} (hsub : [first, second].Sublist j.past)
    (hfirst : (first.effect?.bind f).isSome) (hsecond : (second.effect?.bind f).isSome) :
    first.site.call ≤ second.site.call := by
  rcases h.query_of_entry hf (hsub.subset (by simp)) hfirst with ⟨o', ho', hquery'⟩
  rcases h.query_of_entry hf (hsub.subset (by simp)) hsecond with ⟨o, ho, hquery⟩
  by_contra hlt
  have hunhindered := hqueries _ (Journal.mem_queries.mpr ⟨ho, hquery⟩)
  have hall := h.effects_of_returned ho hunhindered (isReturned_of_isFree h hfree ho hquery)
  have hahead := hturn _ _ o o' (Nat.not_le.mp hlt) ho ho' hquery hquery' hunhindered
  rcases hahead.split hall with ⟨before, after, hsplit, hnone, hfresh⟩
  rcases Option.isSome_iff_exists.mp hsecond with ⟨y, hy⟩
  rcases Option.bind_eq_some_iff.mp hy with ⟨effect, heffect, -⟩
  -- what the later query has done stands behind all that the earlier one has done
  have hbehind : first ∉ before := fun hmem => hfresh first hmem rfl
  have hnot : second ∉ after := fun hmem => hnone second hmem rfl effect heffect
  rw [hsplit] at hsub
  exact Partition.not_sublist_append hbehind hnot hsub

/-- The entries of a registry are those of the first query of its executor, those of the second, and
so on. -/
theorem entries_in_turn (h : j.Tells threads s) (hturn : s.InTurn x j)
    (hfree : s.isFree x = true) (hqueries : ∀ q ∈ j.queries x, q.1.Unhindered s.backend)
    (hf : ∀ a, Assignment.Enters a s.backend x f entry) :
    (History.effects j.past).filterMap f = (j.queries x).flatMap fun q =>
      (History.effects (History.ofCall q.2 j.past)).filterMap f := by
  have hcovered : ∀ o ∈ j.past, o.site.call < j.calls.length :=
    h.length_eq ▸ (Engine.sites_of_run h.recorded).2
  have hothers : ∀ q ∈ j.calls.zipIdx, q.1.isQueryOf x = false →
      (History.effects (History.ofCall q.2 j.past)).filterMap f = [] := by
    rintro ⟨o, k⟩ hq hquery
    exact h.entries_eq_nil (List.mem_zipIdx_iff_getElem?.mp hq) (hf _)
      (of_decide_eq_false hquery)
  calc
    (History.effects j.past).filterMap f
        = (List.range j.calls.length).flatMap fun k =>
            (History.effects (History.ofCall k j.past)).filterMap f :=
          History.filterMap_effects_of_sorted
            (fun hsub => call_le_of_entries h hturn hfree hqueries hf hsub) hcovered
    _ = j.calls.zipIdx.flatMap fun q =>
          (History.effects (History.ofCall q.2 j.past)).filterMap f := by
          rw [List.range_eq_range', ← List.zipIdx_map_snd, List.flatMap_map]
    _ = (j.queries x).flatMap fun q =>
          (History.effects (History.ofCall q.2 j.past)).filterMap f :=
          (Partition.flatMap_filter hothers).symm

end Session

end ScatterGather
