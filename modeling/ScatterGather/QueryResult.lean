import ScatterGather.Cursor

/-!
# QueryResult — the rows of one unit, still to be fetched or all at hand

A stream reads its cursor as it is asked, and keeps its connection open for that; a buffer was
filled when the unit ran. Both are read by the same two operations, which take the cursor that the
result reads from and give it back.

* `QueryResult.next` : one row, the end, or the failure of the cursor.
* `QueryResult.collect` : all rows that are left.
* `Buffer.drain` : reads a cursor to its end.
-/

namespace ScatterGather

/-- Rows in an open cursor, which is known by its number. -/
structure Stream where
  target : String
  columns : List String
  cursor : Nat
  connection : Connection
  exhausted : Bool

/-- Rows at hand, `next` being the first one that was not read. -/
structure Buffer where
  target : String
  columns : List String
  rows : List Row
  next : Nat

inductive QueryResult
  | stream (s : Stream)
  | memory (b : Buffer)

def cursorError (target : String) (e : BackendError) : ExecutionError :=
  .cursor target e.message

/-! ## Streams -/

namespace Stream

def ofCursor (target : String) (id : Nat) (c : Cursor) (connection : Connection) : Stream :=
  { target, columns := c.columns, cursor := id, connection, exhausted := false }

/-- A failed read leaves the stream as it was; an end is final. -/
def next (s : Stream) (c : Cursor) : Except ExecutionError (Option Row) × Stream × Cursor :=
  if s.exhausted then (.ok none, s, c)
  else
    match c.read with
    | (.row r, c) => (.ok (some r), s, c)
    | (.failure e, c) => (.error (cursorError s.target e), s, c)
    | (.done, c) => (.ok none, { s with exhausted := true }, c)

end Stream

/-! ## Buffers -/

namespace Buffer

def ofRows (target : String) (columns : List String) (rows : List Row) : Buffer :=
  { target, columns, rows, next := 0 }

def fetch (b : Buffer) : Option Row × Buffer :=
  match b.rows[b.next]? with
  | some r => (some r, { b with next := b.next + 1 })
  | none => (none, b)

theorem fetch_some_lt {b b' : Buffer} {r : Row} (h : b.fetch = (some r, b')) :
    b'.rows.length - b'.next < b.rows.length - b.next := by
  unfold fetch at h
  split at h
  · rename_i hs
    have := (List.getElem?_eq_some_iff.mp hs).1
    cases h
    simp
    omega
  · cases h

/-- The rows of a cursor up to its end, or the first failure, and the cursor after that. -/
def readAll (c : Cursor) : Except BackendError (List Row) × Cursor :=
  match _h : c.read with
  | (.row r, c') =>
    match readAll c' with
    | (.ok rows, c'') => (.ok (r :: rows), c'')
    | (.error e, c'') => (.error e, c'')
  | (.failure e, c') => (.error e, c')
  | (.done, c') => (.ok [], c')
termination_by c.script.length
decreasing_by exact Cursor.read_row_lt ‹_›

/-- Reads a cursor to its end. The cursor stays open. -/
def drain (target : String) (c : Cursor) : Except ExecutionError Buffer × Cursor :=
  match readAll c with
  | (.ok rows, c') => (.ok (ofRows target c.columns rows), c')
  | (.error e, c') => (.error (cursorError target e), c')

end Buffer

/-! ## Results -/

namespace QueryResult

def target : QueryResult → String
  | stream s => s.target
  | memory b => b.target

def columns : QueryResult → List String
  | stream s => s.columns
  | memory b => b.columns

/-- The label of a column, the columns being counted from one. -/
def columnLabel? (r : QueryResult) (column : Nat) : Option String :=
  if column = 0 then none else r.columns[column - 1]?

/-- The number of the cursor that is still to be read. -/
def cursor? : QueryResult → Option Nat
  | stream s => some s.cursor
  | memory _ => none

/-- The connections that the result keeps open. -/
def held : QueryResult → List Connection
  | stream s => [s.connection]
  | memory _ => []

def next : QueryResult → Cursor → Except ExecutionError (Option Row) × QueryResult × Cursor
  | stream s, c =>
    let (answer, s, c) := s.next c
    (answer, stream s, c)
  | memory b, c =>
    let (row, b) := b.fetch
    (.ok row, memory b, c)

/-- A bound on the rows that are left. -/
def left : QueryResult → Cursor → Nat
  | stream _, c => c.script.length
  | memory b, _ => b.rows.length - b.next

theorem next_some_lt {r r' : QueryResult} {c c' : Cursor} {row : Row}
    (h : r.next c = (.ok (some row), r', c')) : r'.left c' < r.left c := by
  cases r with
  | stream s =>
    simp only [next, Stream.next] at h
    by_cases he : s.exhausted
    · simp [he] at h
    · cases hr : c.read with
      | mk answer after =>
        cases answer with
        | row x =>
          simp [he, hr] at h
          obtain ⟨-, rfl, rfl⟩ := h
          exact Cursor.read_row_lt hr
        | failure e => simp [he, hr] at h
        | done => simp [he, hr] at h
  | memory b =>
    simp only [next, Prod.mk.injEq, Except.ok.injEq] at h
    obtain ⟨hrow, rfl, -⟩ := h
    exact Buffer.fetch_some_lt (r := row) (Prod.ext hrow rfl)

/-- Reads what is left; a failure drops what was read since the start. -/
def collect (r : QueryResult) (c : Cursor) :
    Except ExecutionError (List Row) × QueryResult × Cursor :=
  match _h : r.next c with
  | (.ok (some row), r', c') =>
    match collect r' c' with
    | (.ok rows, r'', c'') => (.ok (row :: rows), r'', c'')
    | (.error e, r'', c'') => (.error e, r'', c'')
  | (.ok none, r', c') => (.ok [], r', c')
  | (.error e, r', c') => (.error e, r', c')
termination_by r.left c
decreasing_by exact next_some_lt ‹_›

end QueryResult

end ScatterGather
