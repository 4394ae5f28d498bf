import ScatterGather.Connection
import ScatterGather.Datum

/-!
# Cursor — rows that a data source hands out one at a time

A cursor is known by the answers that its reads will get: rows, failures and ends, in any order.
Once they are used up it reports the end for ever, and once it is closed every read fails.

* `Cursor.read` : the next answer and the cursor after it.
-/

namespace ScatterGather

/-- The answer to one read of a cursor, if the read does not panic. -/
inductive Fetch
  | row (r : Row)
  | failure (e : BackendError)
  | done
  deriving DecidableEq

structure Cursor where
  columns : List String
  /-- The answers to come. -/
  script : List Fetch
  /-- The number of reads so far, the failed ones included. -/
  reads : Nat
  closed : Bool

namespace Cursor

def ofScript (columns : List String) (script : List Fetch) : Cursor :=
  { columns, script, reads := 0, closed := false }

def closedError : BackendError :=
  .ofMessage "cursor closed"

def read (c : Cursor) : Fetch × Cursor :=
  if c.closed then (.failure closedError, { c with reads := c.reads + 1 })
  else
    match c.script with
    | [] => (.done, { c with reads := c.reads + 1 })
    | answer :: rest => (answer, { c with script := rest, reads := c.reads + 1 })

def close (c : Cursor) : Cursor :=
  { c with closed := true }

theorem read_row_lt {c c' : Cursor} {r : Row} (h : c.read = (.row r, c')) :
    c'.script.length < c.script.length := by
  unfold read at h
  split at h
  · cases h
  · split at h
    · cases h
    · rename_i hs
      cases h
      simp [hs]

end Cursor

end ScatterGather
