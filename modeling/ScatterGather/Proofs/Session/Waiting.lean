import ScatterGather.Proofs.Session.Sound

/-!
# Waiting — what is kept for a call while others are at work

Between the opening of a call and the moment at which its client takes the answer, anything may
happen to a session but one thing: nobody closes a cursor that a unit of the call is reading, for
that would fail the unit.  The call stays, and the numbers that were given to its statements are
used by its own units only.

* `Session.interrupts` : whether a sweep is about to close what a unit is reading;
* `Session.others?`, `Session.cursor?_of_sweep` : the steps of all but the client of the call;
* `Session.Pending` : the call waits for its client;
* `Session.Reserved` : a number that only the units of the call use;
* `Session.Sound.reserve`, `Session.Reserved.run` : a new number is reserved, and stays so.
-/

namespace ScatterGather

/-! ## Calls that nobody has collected -/

theorem Call.Turn.phase_ne_over {κ α : Type} {k : Nat} {quiet : Prop} {c c' : Call κ α}
    {new : List (Job κ α)} (h : c.Turn k quiet c' new) : c'.phase ≠ .over := by
  cases h with
  | submit hp | count hp | listen hp => simp
  | @gather r rest hp hi =>
      rcases gather_phase { c with inbox := rest } r with ⟨hphase, -⟩ | ⟨answer, hphase, -⟩
      · -- the caller goes on gathering, or it returns
        have hgathering := hphase.trans hp
        simp [hgathering]
      · simp [hphase]
  | stop hp hi => simp [finish]

theorem Call.phase_new_ne_over {κ α : Type} (policy : Policy) (queryId : Nat)
    (batches : List (Batch κ α)) : (Call.new policy queryId batches).phase ≠ .over := by
  by_cases hzero : (batches.flatMap (·.units)).length = 0
  · simp only [Call.new, hzero, if_true]
    simp
  · simp only [Call.new, hzero, if_false]
    simp

namespace Engine

variable {κ α ω : Type} {note : Occurrence κ α → ω → ω} {e e' : Engine κ α ω} {k : Nat}

/-- The answer of the call was not taken yet. -/
def Awaits (e : Engine κ α ω) (k : Nat) : Prop :=
  ∃ c, e.calls[k]? = some c ∧ c.phase ≠ .over

theorem Awaits.start (h : e.Awaits k) (c : Call κ α) : (e.start c).Awaits k := by
  rcases h with ⟨c', hc', hphase⟩
  have hlt : k < e.calls.length := (List.getElem?_eq_some_iff.mp hc').1
  exact ⟨c', by rw [Engine.start, List.getElem?_append_left hlt, hc'], hphase⟩

theorem Awaits.set {n : Nat} {c : Call κ α} (h : e.Awaits k) (hc : n = k → c.phase ≠ .over)
    (hcalls : e'.calls = e.calls.set n c) : e'.Awaits k := by
  rcases h with ⟨c', hc', hphase⟩
  by_cases hnk : n = k
  · subst hnk
    have hlt : n < e.calls.length := (List.getElem?_eq_some_iff.mp hc').1
    exact ⟨c, by rw [hcalls, List.getElem?_set_self hlt], hc rfl⟩
  · exact ⟨c', by rw [hcalls, List.getElem?_set_ne hnk, hc'], hphase⟩

theorem Awaits.step {m : Move} (h : e.Awaits k) (hstep : e.step? note m = some e') :
    e'.Awaits k := by
  cases m with
  | caller n =>
      rcases callerStep?_turn hstep with ⟨c, c', new, -, hturn, hcalls, -⟩
      exact h.set (fun _ => hturn.phase_ne_over) hcalls
  | worker w =>
      rcases workerStep?_turn hstep with
        ⟨hcalls, -⟩ | ⟨j, others, p, c, c', os, -, hc, hturn, hcalls, -⟩
      · rcases h with ⟨c, hc, hphase⟩
        exact ⟨c, hcalls ▸ hc, hphase⟩
      · -- a job leaves the phase of its call alone
        refine h.set (fun hjk => ?_) hcalls
        rcases h with ⟨c₀, hc₀, hphase⟩
        rw [← hjk, hc, Option.some.injEq] at hc₀
        rw [hturn.phase_eq, hc₀]
        exact hphase

end Engine

namespace Session

variable {β : Type} {s s' : Session β} {k id : Nat} {sweeping : Bool}

/-- The cursor that the next step of a sweep closes, if it closes one. -/
def closes? (s : Session β) (i : Nat) : Option CursorHandle :=
  match s.sweeps[i]? with
  | some (_, .closing (.cursor handle :: _) _) => some handle
  | _ => none

/-- Whether a unit of call `k` has still to read the cursor that the next step of a sweep closes. -/
def interrupts (s : Session β) (k i : Nat) : Bool :=
  (s.closes? i).any fun handle =>
    s.engine.jobs.any fun j => j.call == k && j.stage.todo.any (Effect.reads handle)

/-- The steps of all but the client of call `k`.  With `sweeping` the registries are swept, but not
from under a unit of the call, and without it nobody closes anything. -/
def others? (k : Nat) (sweeping : Bool) (s : Session β) (m : Step β) : Option (Session β) :=
  match m with
  | .conclude n => if n = k then none else s.step? m
  | .sweep i => if sweeping && !s.interrupts k i then s.step? m else none
  | _ => s.step? m

theorem others?_step {m : Step β} (h : s.others? k sweeping m = some s') :
    s.step? m = some s' ∧ (∀ n, m = .conclude n → n ≠ k) ∧
      (m.isSweep = true → sweeping = true) := by
  cases m with
  | conclude n =>
      by_cases hnk : n = k
      · simp [others?, hnk] at h
      · simp only [others?, hnk, if_false] at h
        refine ⟨h, ?_, by simp [Step.isSweep]⟩
        intro n' hn'
        cases hn'
        exact hnk
  | sweep i =>
      cases hallowed : sweeping && !s.interrupts k i with
      | false => simp [others?, hallowed] at h
      | true =>
          simp only [others?, hallowed, if_true] at h
          exact ⟨h, by simp, fun _ => (Bool.and_eq_true_iff.mp hallowed).1⟩
  | begin | engine | insert | remove | clear | setRethrow | beginSweep =>
      exact ⟨h, by simp, by simp [Step.isSweep]⟩

/-- A cursor that a unit of the call has still to read is left as it is. -/
theorem cursor?_of_sweep {i : Nat} {job : Job Effect Output} {handle : CursorHandle}
    (h : s.others? k sweeping (.sweep i) = some s') (hjob : job ∈ s.engine.jobs)
    (hcall : job.call = k) (hread : .readCursor handle ∈ job.stage.todo) :
    s'.world.cursor? handle = s.world.cursor? handle := by
  -- no other cursor is closed than the one that the step would interrupt
  have hother (other : CursorHandle) (hcloses : s.closes? i = some other) : other ≠ handle := by
    rintro rfl
    have hinterrupts : s.interrupts k i = true := by
      simp only [interrupts, hcloses, Option.any_some, List.any_eq_true, Bool.and_eq_true,
        beq_iff_eq]
      exact ⟨job, hjob, hcall, _, hread, by simp [Effect.reads]⟩
    simp [others?, hinterrupts] at h
  have hstep : s.sweepStep? i = some s' := (others?_step h).1
  simp only [sweepStep?, Option.bind_eq_bind, Option.bind_eq_some_iff, Option.some.injEq,
    Prod.exists] at hstep
  rcases hstep with ⟨x, sweep, hsweep, sweep', r, attempted, hmove, rfl⟩
  cases sweep with
  | fresh | tookCursors =>
      cases hmove
      rfl
  | closing left failure =>
      cases left with
      | nil => cases hmove
      | cons resource left =>
          cases hmove
          cases resource with
          | statement st => rfl
          | cursor other =>
              have hne := hother other (by simp [closes?, hsweep])
              exact World.cursor?_close_of_ne _ hne

theorem run_of_others (h : Run (others? k sweeping) s s') : Run step? s s' := by
  induction h with
  | refl => exact .refl
  | tail _ hstep ih =>
      rcases hstep with ⟨m, hm⟩
      exact ih.snoc (others?_step hm).1

/-- The callers and the workers are among the others. -/
theorem others_of_moves (k : Nat) (sweeping : Bool) {e' : Engine Effect Output World}
    (h : Run (Engine.step? noteWorld) s.engine e') :
    Run (others? k sweeping) s { s with engine := e' } := by
  induction h with
  | refl => exact .refl
  | @tail e₁ e₂ _ hstep ih =>
      rcases hstep with ⟨m, hm⟩
      have hmove : others? k sweeping { s with engine := e₁ } (.engine m) =
          some { s with engine := e₂ } := by
        simp only [others?, step?, hm, Option.map_some]
      exact ih.snoc hmove

/-! ## The call -/

/-- The call was issued and its client has not taken the answer. -/
structure Pending (k : Nat) (i : Issued) (s : Session β) : Prop where
  issued : s.issued[k]? = some i
  awaits : s.engine.Awaits k

namespace Pending

variable {i : Issued}

theorem turn {m : Step β} (h : s.Pending k i) (hturn : s.Turn s' m)
    (hother : ∀ n, m = .conclude n → n ≠ k) : s'.Pending k i := by
  rcases h with ⟨hissued, hawaits⟩
  cases hturn with
  | @accept x kind w policy queryId batches i' grown below fresh engine issued =>
      have hlt : k < s.issued.length := (List.getElem?_eq_some_iff.mp hissued).1
      have hsame : (s.engine.withWorld w).Awaits k := hawaits
      exact ⟨by rw [issued, List.getElem?_append_left hlt, hissued], engine ▸ hsame.start _⟩
  | move engine issued => exact ⟨issued ▸ hissued, hawaits.step engine⟩
  | @collect n answer e w collect grown engine issued =>
      rcases Engine.collect_eq_some collect with ⟨c, -, -, rfl⟩
      have hne : n ≠ k := hother n rfl
      have hcalls : s'.engine.calls = s.engine.calls.set n { c with phase := .over } := by
        rw [engine]
        rfl
      exact ⟨issued ▸ hissued, hawaits.set (fun hnk => absurd hnk hne) hcalls⟩
  | @tend m w tended engine issued =>
      have hsame : (s.engine.withWorld w).Awaits k := hawaits
      exact ⟨issued ▸ hissued, engine ▸ hsame⟩

theorem run (h : s.Pending k i) (hrun : Run (others? k sweeping) s s') : s'.Pending k i := by
  refine Run.preserves (P := Pending k i) ?_ hrun h
  intro s s' m hs hstep
  rcases others?_step hstep with ⟨hm, hother, -⟩
  exact hs.turn (step?_turn hm) hother

/-- Once the call has returned its client can take the answer, which changes no cursor. -/
theorem conclude (h : s.Pending k i) (hr : s.engine.isReturned k = true) :
    ∃ answer s', s.engine.answer? k = some answer ∧
      s.conclude k = some (.ofAnswer i.kind i.queryId answer, s') ∧
      s'.world.cursors = s.world.cursors := by
  rcases h with ⟨hissued, c, hc, hphase⟩
  cases hp : c.phase with
  | submitting left => simp [Engine.isReturned, hc, Call.isReturned, hp] at hr
  | counting left => simp [Engine.isReturned, hc, Call.isReturned, hp] at hr
  | gathering => simp [Engine.isReturned, hc, Call.isReturned, hp] at hr
  | returned answer =>
      have hcollect := Engine.collect_of_returned hc hp
      have hanswer : s.engine.answer? k = some answer := by
        simp [Engine.answer?, hc, Call.answer?, hp]
      have hconclude : ∃ s', s.conclude k = some (.ofAnswer i.kind i.queryId answer, s') ∧
          s'.world.cursors = s.world.cursors := by
        simp only [Session.conclude, hissued, hcollect, Option.bind_eq_bind, Option.bind_some]
        exact ⟨_, rfl, rfl⟩
      rcases hconclude with ⟨s', hs', hcursors⟩
      exact ⟨answer, s', hanswer, hs', hcursors⟩
  | «over» => exact absurd hp hphase

end Pending

/-! ## Its numbers -/

/-- Number `id` is used by the units of call `k` only, and they have left it as `past` tells. -/
structure Reserved (k id : Nat) (sweeping : Bool) (past : History Effect Output)
    (s : Session β) : Prop where
  sound : s.Sound
  numbered : id < s.world.prepared
  brings : s.engine.Brings fun call x => call ≠ k → x.touches id = false
  apart : ∀ o ∈ past, ∀ x, o.effect? = some x → o.site.call ≠ k → x.touches id = false
  unopened : (History.effects past).filter (Effect.touches id) = [] → s.world.openAt id = []
  opened : ∀ handle cursor,
    (History.effects past).filter (Effect.touches id) = [.openCursor handle cursor] →
      ∃ c, OpenCursor.Tended sweeping { handle, cursor } c ∧ s.world.openAt id = [c]

/-- Where the others leave a cursor alone, what is done to it is done by the call. -/
theorem effects_ofCall_filter {past : History Effect Output}
    (hapart : ∀ o ∈ past, ∀ x, o.effect? = some x → o.site.call ≠ k → x.touches id = false) :
    (History.effects (History.ofCall k past)).filter (Effect.touches id) =
      (History.effects past).filter (Effect.touches id) := by
  induction past with
  | nil => rfl
  | cons o past ih =>
      have hrest := ih fun o' ho' => hapart o' (List.mem_cons_of_mem _ ho')
      by_cases hk : o.site.call = k
      · have hown : History.ofCall k (o :: past) = o :: History.ofCall k past := by
          simp [History.ofCall, hk]
        rw [hown]
        cases hx : o.effect? with
        | none => simpa [History.effects, hx] using hrest
        | some x =>
            by_cases ht : x.touches id <;> simpa [History.effects, hx, ht] using hrest
      · have hother : History.ofCall k (o :: past) = History.ofCall k past := by
          simp [History.ofCall, hk]
        rw [hother, hrest]
        cases hx : o.effect? with
        | none => simp [History.effects, hx]
        | some x =>
            have ht : x.touches id = false := hapart o (List.mem_cons_self ..) x hx hk
            simp [History.effects, hx, ht]

/-- The numbers that a step gives out are reserved for the call that it begins. -/
theorem Sound.reserve {m : Step β} (h : s.Sound) (hturn : s.Turn s' m)
    (hle : s.world.prepared ≤ id) (hlt : id < s'.world.prepared) :
    s'.Reserved s.engine.calls.length id sweeping [] := by
  -- what the session already has to do concerns smaller numbers
  have hforeign : s.engine.Brings fun call x =>
      call ≠ s.engine.calls.length → x.touches id = false :=
    h.brings.mono (fun _ _ _ hx _ => hx.not_touches hle) h.service
  -- no cursor with the number is open yet
  have hnone : s'.world.openAt id = [] := by
    rcases hturn.recorded h.brings with ⟨os, htended, hos, -⟩
    have huntouched : (History.effects os).filter (Effect.touches id) = [] := by
      apply List.filter_eq_nil_iff.mpr
      intro x hx
      rcases List.mem_filterMap.mp hx with ⟨o, ho, heffect⟩
      simp [(hos o ho x heffect).not_touches hle]
    apply htended.openAt_nil
    rw [replay_openAt huntouched]
    exact h.ordered.openAt hle
  refine ⟨h.turn hturn, hlt, hturn.brings hforeign ?_, by simp, fun _ => hnone,
    by simp [History.effects]⟩
  -- the call that begins is the one that the number is reserved for
  intro c _ _ b _ u _ x _ hne
  exact absurd rfl hne

namespace Reserved

variable {past : History Effect Output}

theorem turn {m : Step β} (h : s.Reserved k id sweeping past) (hturn : s.Turn s' m)
    (hsweep : m.isSweep = true → sweeping = true) :
    ∃ os, s'.Reserved k id sweeping (past ++ os) ∧
      ∀ before, Run (Engine.act? History.note) (s.engine.withWorld before)
        (s'.engine.withWorld (before ++ os)) := by
  rcases hturn.recorded h.brings with ⟨os, htended, hos, hrun⟩
  -- the effects of the step come first, and then the world is tended
  have hkept : (History.replay noteWorld os s.world).Tended sweeping s'.world :=
    htended.mono hsweep
  have hle : s.world.prepared ≤ s'.world.prepared := by
    rw [← World.performAll_prepared s.world (History.effects os), ← replay_eq_foldl]
    exact hkept.prepared
  refine ⟨os, ⟨h.sound.turn hturn, Nat.lt_of_lt_of_le h.numbered hle, ?_, ?_, ?_, ?_⟩, hrun⟩
  · -- a call that begins has numbers of its own
    refine hturn.brings h.brings ?_
    intro c _ hfresh b hb u hu x hx _
    exact hfresh id h.numbered b hb u hu x hx
  · intro o ho
    rcases List.mem_append.mp ho with ho | ho
    · exact h.apart o ho
    · exact hos o ho
  · intro hnone
    rw [History.effects_append, List.filter_append, List.append_eq_nil_iff] at hnone
    apply hkept.openAt_nil
    rw [replay_openAt hnone.2]
    exact h.unopened hnone.1
  · intro handle cursor hone
    rw [History.effects_append, List.filter_append, List.append_eq_singleton_iff] at hone
    rcases hone with ⟨hnone, hone⟩ | ⟨hone, hnone⟩
    · -- the step opens the cursor, or it was open before
      exact hkept.single id _ (openAt_of_untouched (h.unopened hnone) hone)
    · rcases h.opened handle cursor hone with ⟨c, hc, hopen⟩
      -- the cursor is as it was, and is then closed or is not
      have hstill : (History.replay noteWorld os s.world).openAt id = [c] :=
        (replay_openAt hnone).trans hopen
      rcases hkept.single id c hstill with ⟨c', hc', hopen'⟩
      exact ⟨c', hc.trans hc', hopen'⟩

theorem run (h : s.Reserved k id sweeping []) (hrun : Run (others? k sweeping) s s') :
    ∃ past, s'.Reserved k id sweeping past ∧
      ∀ before, Run (Engine.act? History.note) (s.engine.withWorld before)
        (s'.engine.withWorld (before ++ past)) := by
  induction hrun with
  | refl => exact ⟨[], h, fun before => by rw [List.append_nil]⟩
  | tail _ hstep ih =>
      rcases ih with ⟨past, hreserved, hpast⟩
      rcases hstep with ⟨m, hm⟩
      rcases others?_step hm with ⟨hm, -, hsweep⟩
      rcases hreserved.turn (step?_turn hm) hsweep with ⟨os, hnext, hacts⟩
      refine ⟨past ++ os, hnext, fun before => ?_⟩
      rw [← List.append_assoc]
      exact (hpast before).trans (hacts (before ++ past))

end Reserved

end Session

end ScatterGather
