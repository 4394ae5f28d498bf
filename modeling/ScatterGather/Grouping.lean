import ScatterGather.Connection
import ScatterGather.Grouping.Packing
import ScatterGather.Route

/-!
# Grouping — units that share a connection

A statement may use at most so many connections. The distinct targets of its route, in the order
of their first appearance, are packed onto them, and a group holds the units of its targets,
target by target. Planning is pure; building asks a binder for connections and statements and
stops at its first refusal.

* `Grouping.targets`, `Grouping.placed` : the distinct targets, and the units of one of them.
* `Grouping.plans` : the groups before anything is opened.
* `Binder` : where connections and prepared units come from.
* `Grouping.group` : the groups of a route.
-/

namespace ScatterGather

/-- Something with its position in the route. -/
structure Placed (υ : Type) where
  position : Nat
  unit : υ

/-- Opens connections and prepares units on them. -/
structure Binder (m : Type → Type) (γ υ : Type) where
  connect : String → m (Except ConnectionError γ)
  /-- One connection for several targets, given in the order of the route. -/
  connectShared : List String → m (Except ConnectionError γ)
  prepare : γ → RouteUnit → Mode → m (Except StatementError υ)

/-- Units bound to one connection; they run in order, one at a time. -/
structure Group (γ υ : Type) where
  index : Nat
  connection : γ
  mode : Mode
  targets : List String
  units : List (Placed υ)

/-- Whether units of several targets share the connection. -/
def Group.isPacked {γ υ : Type} (g : Group γ υ) : Bool :=
  decide (1 < g.targets.length)

namespace Grouping

/-! ## Planning -/

/-- No connection at all would leave nothing to run on. -/
def effectiveCap (cap : Nat) : Nat :=
  max cap 1

def targets (route : List RouteUnit) : List String :=
  (route.map RouteUnit.target).eraseDups

/-- The units of one target, by increasing position. -/
def placed (route : List RouteUnit) (target : String) : List (Placed RouteUnit) :=
  (route.zipIdx.filter fun (unit, _) => unit.target == target).map fun (unit, position) =>
    { position, unit }

structure Plan where
  index : Nat
  targets : List String
  units : List (Placed RouteUnit)

def Plan.mode (p : Plan) : Mode :=
  Mode.ofTargetCount p.targets.length

def plan (route : List RouteUnit) (index : Nat) (targets : List String) : Plan :=
  { index, targets, units := targets.flatMap (placed route) }

def plans (cap : Nat) (route : List RouteUnit) : List Plan :=
  let all := targets route
  ((Packing.spans all.length (effectiveCap cap)).map fun s => s.slice all).zipIdx.map
    fun (targets, index) => plan route index targets

/-! ## Building -/

section

variable {m : Type → Type} [Monad m] {γ υ : Type}

/-- A plan with one target asks for its connection, any other for a shared one. -/
def acquire (b : Binder m γ υ) (targets : List String) : m (Except ConnectionError γ) :=
  match targets with
  | [target] => b.connect target
  | targets => b.connectShared targets

/-- Prepares units in order, up to the first that fails. -/
def prepareAll (b : Binder m γ υ) (connection : γ) (mode : Mode) :
    List (Placed RouteUnit) → m (Except StatementError (List (Placed υ)))
  | [] => pure (.ok [])
  | p :: rest => do
    match ← b.prepare connection p.unit mode with
    | .error e => pure (.error e)
    | .ok unit =>
      match ← prepareAll b connection mode rest with
      | .error e => pure (.error e)
      | .ok units => pure (.ok ({ position := p.position, unit } :: units))

def build (b : Binder m γ υ) (p : Plan) : m (Except Error (Group γ υ)) := do
  match ← acquire b p.targets with
  | .error e => pure (.error (.connection e))
  | .ok connection =>
    match ← prepareAll b connection p.mode p.units with
    | .error e => pure (.error (.statement e))
    | .ok units =>
      pure (.ok { index := p.index, connection, mode := p.mode, targets := p.targets, units })

def buildAll (b : Binder m γ υ) : List Plan → m (Except Error (List (Group γ υ)))
  | [] => pure (.ok [])
  | p :: rest => do
    match ← build b p with
    | .error e => pure (.error e)
    | .ok g =>
      match ← buildAll b rest with
      | .error e => pure (.error e)
      | .ok gs => pure (.ok (g :: gs))

/-- The groups of a route on at most `cap` connections, or the first refusal. -/
def group (b : Binder m γ υ) (cap : Nat) (route : List RouteUnit) :
    m (Except Error (List (Group γ υ))) :=
  buildAll b (plans cap route)

end

end Grouping

end ScatterGather
