import ScatterGather.Grouping

/-!
# Checked — planning in words of 64 bits

A machine counts targets and places in words.  It refuses a sum that does not fit into a word, a
difference below zero, a division by zero, and a slice or an element that a list does not have.
Planning is written out here with all of these checks, and has no result once one of them fails.

* `Word.add?`, `Word.sub?`, `Word.div?`, `Word.mod?` : arithmetic that may be refused.
* `Packing.stretches?` : the spans of a row of targets, from one place to another.
* `Grouping.plans?` : the groups of a route, sliced and looked up.
-/

namespace ScatterGather

/-! ## Words -/

namespace Word

def ofNat? (n : Nat) : Option UInt64 :=
  if n < UInt64.size then some (.ofNat n) else none

def add? (a b : UInt64) : Option UInt64 :=
  if a.toNat + b.toNat < UInt64.size then some (a + b) else none

def sub? (a b : UInt64) : Option UInt64 :=
  if b ≤ a then some (a - b) else none

def div? (a b : UInt64) : Option UInt64 :=
  if b = 0 then none else some (a / b)

def mod? (a b : UInt64) : Option UInt64 :=
  if b = 0 then none else some (a % b)

/-- The words below `n`, in order. -/
def below (n : UInt64) : List UInt64 :=
  (List.range n.toNat).map UInt64.ofNat

end Word

/-! ## Packing -/

/-- The places from `start` on, up to the one before `stop`. -/
structure Stretch where
  start : UInt64
  stop : UInt64
  deriving DecidableEq

namespace Stretch

/-- The same places, with numbers that no word bounds. -/
def span (r : Stretch) : Span :=
  { start := r.start.toNat, size := r.stop.toNat - r.start.toNat }

def size? (r : Stretch) : Option UInt64 :=
  Word.sub? r.stop r.start

def slice? {α : Type} (r : Stretch) (xs : List α) : Option (List α) := do
  let size ← r.size?
  if r.stop.toNat ≤ xs.length then
    some ((xs.drop r.start.toNat).take size.toNat)
  else none

end Stretch

namespace Packing

/-- The stretch of one place. -/
def single? (i : UInt64) : Option Stretch :=
  (Word.add? i 1).map fun stop => { start := i, stop }

/-- One stretch for each of the numbers, one behind the other; those with a number below `extra`
have one place more. -/
def cut? (base extra start : UInt64) : List UInt64 → Option (List Stretch)
  | [] => some []
  | i :: rest => do
    let size ← Word.add? base (if i < extra then 1 else 0)
    let stop ← Word.add? start size
    let others ← cut? base extra stop rest
    some ({ start, stop } :: others)

def stretches? (targets cap : UInt64) : Option (List Stretch) :=
  if targets ≤ cap then
    (Word.below targets).mapM single?
  else do
    let base ← Word.div? targets cap
    let extra ← Word.mod? targets cap
    cut? base extra 0 (Word.below cap)

end Packing

/-! ## Planning -/

namespace Grouping

/-- A target with the positions at which it stands in a route. -/
def bucket (route : List RouteUnit) (target : String) : String × List Nat :=
  (target, (placed route target).map Placed.position)

def plan? (route : List RouteUnit) (index : Nat) (members : List (String × List Nat)) :
    Option Plan := do
  let units ← (members.flatMap Prod.snd).mapM fun position =>
    route[position]?.map fun unit => { position, unit }
  some { index, targets := members.map Prod.fst, units }

def plans? (cap : UInt64) (route : List RouteUnit) : Option (List Plan) := do
  let all := (targets route).map (bucket route)
  let count ← Word.ofNat? all.length
  let stretches ← Packing.stretches? count (max cap 1)
  let rows ← stretches.mapM fun r => r.slice? all
  rows.zipIdx.mapM fun (members, index) => plan? route index members

end Grouping

end ScatterGather
