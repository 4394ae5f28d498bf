/-!
# Merge — one answer out of the outcomes of all units

* `Merge.total?` : the sum of the affected rows, absent where it does not fit into 64 bits.
* `Merge.first` : the outcome of the first unit.
-/

namespace ScatterGather

namespace Merge

/-- The number of rows that a unit counts; a skipped unit and one without a count have none. -/
def count (outcome : Option (Option UInt64)) : UInt64 :=
  outcome.join.getD 0

def addCount (total : UInt64) (outcome : Option (Option UInt64)) : Option UInt64 :=
  if total.toNat + (count outcome).toNat < UInt64.size then some (total + count outcome) else none

/-- Adds from left to right, and stops where a sum is too large. -/
def total? (outcomes : List (Option (Option UInt64))) : Option UInt64 :=
  outcomes.foldlM addCount 0

def first (outcomes : List (Option Bool)) : Bool :=
  (outcomes.head?.join).getD false

end Merge

end ScatterGather
