import ScatterGather.Proofs.Session.Steps

/-!
# Sound — what holds of a session at any time

Statements are numbered as they are prepared, and whatever a session will still do to a cursor it
does to one whose statement has a number already.  So the cursors of a new call are its own.

* `Session.Sound` : the invariant;
* `Session.Sound.turn` : every step of a session keeps it;
* `Session.sound_of_run` : it holds in every session that began with no calls;
* `Session.Sound.recorded` : the engine whose world is its history makes the same run.
-/

namespace ScatterGather

namespace Engine

variable {κ α ω ω' : Type}

/-- Service does not depend on the world. -/
theorem InService.withWorld {e : Engine κ α ω} (h : e.InService) (world : ω') :
    (e.withWorld world).InService :=
  ⟨h.serving, h.known⟩

end Engine

namespace Session

variable {β : Type} {s s' : Session β}

/-- The numbers of all statements that the session knows of were given out. -/
structure Sound (s : Session β) : Prop where
  service : s.engine.InService
  issued : s.issued.length = s.engine.calls.length
  brings : s.engine.Brings fun _ => Effect.Below s.world.prepared
  ordered : s.world.Ordered

theorem sound_start (threads : Nat) (backend : Backend) (executors : List Executor)
    (recorders : Nat) : (Session.start threads backend executors recorders : Session β).Sound := by
  have hservice := Engine.inService_new (κ := Effect) (α := Output) threads
    (Session.start threads backend executors recorders : Session β).world
  refine ⟨hservice, rfl, ⟨?_, ?_⟩, ?_⟩
  · intro k c hc
    cases hc
  · intro j hj
    have hlt := hservice.known j hj
    cases hlt
  · intro c hc
    cases hc

/-- Issues and calls are numbered alike. -/
theorem Turn.issued_length {m : Step β} (h : s.Turn s' m)
    (hlength : s.issued.length = s.engine.calls.length) (hservice : s.engine.InService) :
    s'.issued.length = s'.engine.calls.length := by
  cases h with
  | accept grown below fresh engine issued =>
      simp [engine, issued, Engine.start, hlength]
  | move engine issued => rw [issued, hlength, (hservice.step engine).2]
  | collect collect grown engine issued =>
      rcases Engine.collect_eq_some collect with ⟨c, -, -, rfl⟩
      simp [engine, issued, Engine.setCall, hlength]
  | tend tended engine issued => simp [engine, issued, hlength]

namespace Sound

theorem turn {m : Step β} (h : s.Sound) (hturn : s.Turn s' m) : s'.Sound := by
  rcases hturn.recorded h.brings with ⟨os, htended, hos, hrun⟩
  have hbelow : ∀ x ∈ History.effects os, x.Below s.world.prepared := by
    intro x hx
    rcases List.mem_filterMap.mp hx with ⟨o, ho, heffect⟩
    exact hos o ho x heffect
  have hordered := World.performAll_ordered h.ordered hbelow
  have hle := htended.prepared
  rw [← replay_eq_foldl] at hordered
  rw [replay_eq_foldl, World.performAll_prepared] at hle
  have hservice : (s'.engine.withWorld ([] ++ os)).InService :=
    Run.preserves Engine.InService.act (hrun []) (h.service.withWorld [])
  refine ⟨hservice.withWorld _, hturn.issued_length h.issued h.service, ?_,
    htended.ordered hordered⟩
  have hmore : s.engine.Brings fun _ => Effect.Below s'.world.prepared :=
    h.brings.mono (fun _ _ _ hx => hx.mono hle) h.service
  exact hturn.brings hmore fun c hbelow _ => hbelow

theorem run (h : s.Sound) (hrun : Run step? s s') : s'.Sound :=
  Run.preserves (fun hs hstep => hs.turn (step?_turn hstep)) hrun h

end Sound

theorem sound_of_run {threads : Nat} {backend : Backend} {executors : List Executor}
    {recorders : Nat} (h : Run step? (Session.start threads backend executors recorders) s) :
    s.Sound :=
  (sound_start threads backend executors recorders).run h

/-- The engine whose world is its history follows a session wherever it goes. -/
theorem Sound.recorded (h : s.Sound) (hrun : Run step? s s') :
    ∃ past, ∀ before, Run (Engine.act? History.note) (s.engine.withWorld before)
      (s'.engine.withWorld (before ++ past)) := by
  induction hrun with
  | refl => exact ⟨[], fun before => by rw [List.append_nil]⟩
  | tail hrun hstep ih =>
      rcases ih with ⟨past, hpast⟩
      rcases hstep with ⟨m, hm⟩
      rcases (step?_turn hm).recorded (h.run hrun).brings with ⟨os, -, -, hnext⟩
      refine ⟨past ++ os, fun before => ?_⟩
      rw [← List.append_assoc]
      exact (hpast before).trans (hnext (before ++ past))

end Session

end ScatterGather
