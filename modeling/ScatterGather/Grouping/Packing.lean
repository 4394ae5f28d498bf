/-!
# Packing — many targets on few connections

`Packing.spans` cuts a row of targets into contiguous spans, at most `cap` of them. With no more
targets than spans each target has its own; otherwise the lengths differ by at most one, the
longer spans coming first.
-/

namespace ScatterGather

/-- The targets from `start` on, `size` of them. -/
structure Span where
  start : Nat
  size : Nat
  deriving DecidableEq

namespace Span

def stop (s : Span) : Nat :=
  s.start + s.size

def slice {α : Type} (s : Span) (xs : List α) : List α :=
  (xs.drop s.start).take s.size

end Span

namespace Packing

/-- Spans of the given sizes, one behind the other. -/
def layOut (start : Nat) : List Nat → List Span
  | [] => []
  | size :: rest => ⟨start, size⟩ :: layOut (start + size) rest

def sizes (targets cap : Nat) : List Nat :=
  if targets ≤ cap then List.replicate targets 1
  else
    List.replicate (targets % cap) (targets / cap + 1) ++
      List.replicate (cap - targets % cap) (targets / cap)

def spans (targets cap : Nat) : List Span :=
  layOut 0 (sizes targets cap)

end Packing

end ScatterGather
