import ScatterGather.Proofs.Grouping.Building

/-!
# Asking — the requests that grouping a route makes

Grouping asks for a connection for each group, and then for a statement for each of its units.  A
request is logged before it is answered, and the first that is refused is the last that is made,
wherever in the route it stands.

* `Request.binds` : requests that open and prepare, and run nothing;
* `Backend.refusalOf?` : the error with which a request is refused;
* `World.Asked` : the requests that were made, and the refusal that ended them;
* `Grouping.Asks.bind` : a part that is refused leaves the rest unasked;
* `Grouping.group_asked` : a route is grouped, or it ends with the first refusal.
-/

namespace ScatterGather

def Request.binds : Request → Bool
  | connect _ | connectShared _ | prepare .. => true
  | call .. | closeStatement _ => false

def Backend.refusalOf? (b : Backend) : Request → Option Error
  | .connect target => (b.refusal? target).map .connection
  | .connectShared targets => (targets.findSome? b.refusal?).map .connection
  | .prepare connection route _ _ => (b.prepareError? connection route).map .statement
  | .call .. | .closeStatement _ => none

namespace World

/-- The requests `asked` were made, one after the other.  None of them is refused, or the last one
is. -/
structure Asked (b : Backend) (w w' : World) (asked : List Request) (refusal? : Option Error) :
    Prop where
  log : w'.log = w.log ++ asked
  binds : ∀ r ∈ asked, r.binds
  granted : ∀ r ∈ asked.dropLast, b.refusalOf? r = none
  refusal : asked.findSome? b.refusalOf? = refusal?

namespace Asked

variable {b : Backend} {w w₁ w₂ : World} {asked more : List Request} {refusal? : Option Error}

theorem nil (w : World) : w.Asked b w [] none :=
  ⟨(List.append_nil _).symm, by simp, by simp, rfl⟩

theorem single {r : Request} (hlog : w₁.log = w.log ++ [r]) (hbinds : r.binds)
    (hrefusal : b.refusalOf? r = refusal?) : w.Asked b w₁ [r] refusal? :=
  ⟨hlog, by simpa using hbinds, by simp, by simp [hrefusal]⟩

theorem trans (h : w.Asked b w₁ asked none) (h' : w₁.Asked b w₂ more refusal?) :
    w.Asked b w₂ (asked ++ more) refusal? := by
  have hasked : ∀ r ∈ asked, b.refusalOf? r = none := List.findSome?_eq_none_iff.mp h.refusal
  refine ⟨?_, ?_, ?_, ?_⟩
  · rw [h'.log, h.log, List.append_assoc]
  · exact List.forall_mem_append.mpr ⟨h.binds, h'.binds⟩
  · -- the last request of all is the last of the second part, if that makes any
    intro r hr
    cases more with
    | nil => exact hasked r (by simpa using List.dropLast_subset _ hr)
    | cons first rest =>
        rw [List.dropLast_append_of_ne_nil (by simp)] at hr
        exact (List.mem_append.mp hr).elim (hasked r) (h'.granted r)
  · rw [List.findSome?_append, h.refusal, h'.refusal, Option.none_or]

end Asked

end World

namespace Grouping

variable {b : Backend} {options : StatementOptions} {ε ε' α γ : Type}

/-- The error that a request, or a sequence of them, has ended with. -/
def refusal? (error : ε → Error) : Except ε α → Option Error
  | .error e => some (error e)
  | .ok _ => none

/-- A computation ends with the first request that is refused, and with a value if none is. -/
def Asks (b : Backend) (error : ε → Error) (x : StateM World (Except ε α)) : Prop :=
  ∀ w : World, ∃ asked, w.Asked b (x.run w).2 asked (refusal? error (x.run w).1)

theorem Asks.pure (error : ε → Error) (a : α) :
    Asks b error (Pure.pure (.ok a) : StateM World (Except ε α)) :=
  fun w => ⟨[], .nil w⟩

/-- What comes after the first part is asked if that was granted, and else its error is kept. -/
theorem Asks.bind {error : ε → Error} {error' : ε' → Error} {x : StateM World (Except ε α)}
    {f : Except ε α → StateM World (Except ε' γ)} (hx : Asks b error x)
    (hrefused : ∀ e, ∃ e', f (.error e) = Pure.pure (.error e') ∧ error' e' = error e)
    (hgranted : ∀ a, Asks b error' (f (.ok a))) : Asks b error' (x >>= f) := by
  intro w
  rcases hx w with ⟨asked, hasked⟩
  rcases hrun : x.run w with ⟨result, w₁⟩
  rw [hrun] at hasked
  rw [run_bind_of_run hrun]
  cases result with
  | error e =>
      rcases hrefused e with ⟨e', hf, he⟩
      have hkept : w.Asked b w₁ asked (some (error' e')) := he ▸ hasked
      rw [hf]
      exact ⟨asked, hkept⟩
  | ok a =>
      rcases hgranted a w₁ with ⟨more, hmore⟩
      exact ⟨asked ++ more, hasked.trans hmore⟩

/-! ## Single requests -/

theorem connect_asks (b : Backend) (target : String) :
    Asks b .connection (World.requestConnection b target) := by
  intro w
  refine ⟨[.connect target], ?_⟩
  have hrefusal : b.refusalOf? (.connect target) = (b.refusal? target).map .connection := rfl
  cases hr : b.refusal? target with
  | some e | none =>
      rw [hr] at hrefusal
      simp only [StateT.run, World.requestConnection, hr]
      exact .single rfl rfl hrefusal

theorem shared_asks (b : Backend) {targets : List String} (hne : targets ≠ []) :
    Asks b .connection (World.requestShared b targets) := by
  cases hs : b.sharing with
  | lead =>
      cases targets with
      | nil => exact absurd rfl hne
      | cons lead rest =>
          simp only [World.requestShared, hs, leadConnection]
          exact connect_asks b lead
  | joined =>
      intro w
      refine ⟨[.connectShared targets], ?_⟩
      have hrefusal : b.refusalOf? (.connectShared targets) =
          (targets.findSome? b.refusal?).map .connection := rfl
      cases hr : targets.findSome? b.refusal? with
      | some e | none =>
          rw [hr] at hrefusal
          simp only [StateT.run, World.requestShared, hs, hr]
          exact .single rfl rfl hrefusal

theorem acquire_asks (b : Backend) (options : StatementOptions) {targets : List String}
    (hne : targets ≠ []) : Asks b .connection (acquire (World.binder b options) targets) := by
  rcases acquire_cases (World.binder b options) targets with ⟨target, -, hone⟩ | hall
  · rw [hone]
    exact connect_asks b target
  · rw [hall]
    exact shared_asks b hne

theorem prepare_asks (b : Backend) (options : StatementOptions) (connection : Connection)
    (route : RouteUnit) (mode : Mode) :
    Asks b .statement ((World.binder b options).prepare connection route mode) := by
  intro w
  refine ⟨[.prepare connection route mode options], ?_⟩
  have hrefusal : b.refusalOf? (.prepare connection route mode options) =
      (b.prepareError? connection route).map .statement := rfl
  cases hp : b.prepareError? connection route with
  | some e | none =>
      rw [hp] at hrefusal
      simp only [StateT.run, World.binder, World.prepareUnit, World.prepare, hp, Except.map]
      exact .single rfl rfl hrefusal

/-! ## Groups -/

theorem prepareAll_asks (b : Backend) (options : StatementOptions) (connection : Connection)
    (mode : Mode) (ps : List (Placed RouteUnit)) :
    Asks b .statement (prepareAll (World.binder b options) connection mode ps) := by
  induction ps with
  | nil => exact .pure _ []
  | cons p rest ih =>
      refine (prepare_asks b options connection p.unit mode).bind (fun e => ⟨e, rfl, rfl⟩) ?_
      exact fun u => ih.bind (fun e => ⟨e, rfl, rfl⟩) fun us => .pure _ _

theorem build_asks (b : Backend) (options : StatementOptions) {p : Plan} (hne : p.targets ≠ []) :
    Asks b id (build (World.binder b options) p) := by
  refine (acquire_asks b options hne).bind (fun e => ⟨.connection e, rfl, rfl⟩) fun connection => ?_
  exact (prepareAll_asks b options connection p.mode p.units).bind
    (fun e => ⟨.statement e, rfl, rfl⟩) fun us => .pure _ _

theorem buildAll_asks (b : Backend) (options : StatementOptions) {ps : List Plan}
    (hne : ∀ p ∈ ps, p.targets ≠ []) : Asks b id (buildAll (World.binder b options) ps) := by
  induction ps with
  | nil => exact .pure _ []
  | cons p rest ih =>
      rcases List.forall_mem_cons.mp hne with ⟨hp, hrest⟩
      refine (build_asks b options hp).bind (fun e => ⟨e, rfl, rfl⟩) ?_
      exact fun g => (ih hrest).bind (fun e => ⟨e, rfl, rfl⟩) fun gs => .pure _ _

/-- A route is grouped if no request of it is refused, and else it ends with the first that is. -/
theorem group_asked (b : Backend) (options : StatementOptions) (cap : Nat)
    (route : List RouteUnit) (w : World) :
    ∃ asked, w.Asked b ((group (World.binder b options) cap route).run w).2 asked
      (refusal? id ((group (World.binder b options) cap route).run w).1) :=
  buildAll_asks b options (fun _ hp => targets_ne_nil hp) w

end Grouping

end ScatterGather
