import ScatterGather.QueryResult

/-!
# Reading — all rows of a result, streamed or at hand

A stream hands out the rows of its cursor and a buffer those that were read before, one at a time
by the same operations.  So collecting a fresh stream gives what reading its cursor at once gives,
and collecting a buffer of these rows gives them as well.

* `Buffer.readAll_row`, `Buffer.readAll_failure`, `Buffer.readAll_done` : what one read tells about
  all of them;
* `Cursor.Unread`, `Buffer.not_unread_readAll` : reading all comes to the end or to a failure;
* `Buffer.answers_of_readAll_error` : the failure that it comes to;
* `Cursor.Drains`, `Buffer.reads_readAll_ok` : the end, behind as many reads as there are rows;
* `QueryResult.collect_stream_eq` : collecting a stream is reading its cursor to the end;
* `QueryResult.collect_memory` : collecting a buffer is taking what was not read yet.
-/

namespace ScatterGather

namespace Buffer

variable {c c' : Cursor}

theorem readAll_row {r : Row} (h : c.read = (.row r, c')) :
    readAll c = ((readAll c').1.map (r :: ·), (readAll c').2) := by
  rw [readAll]
  split
  · rename_i row after hread
    rw [h] at hread
    cases hread
    rcases readAll c' with ⟨_ | rows, after⟩ <;> rfl
  · rename_i hread
    rw [h] at hread
    cases hread
  · rename_i hread
    rw [h] at hread
    cases hread

theorem readAll_failure {e : BackendError} (h : c.read = (.failure e, c')) :
    readAll c = (.error e, c') := by
  rw [readAll]
  split <;> rename_i hread <;> rw [h] at hread <;> cases hread
  rfl

theorem readAll_done (h : c.read = (.done, c')) : readAll c = (.ok [], c') := by
  rw [readAll]
  split <;> rename_i hread <;> rw [h] at hread <;> cases hread
  rfl

end Buffer

/-! ## Reads -/

def Fetch.isRow : Fetch → Bool
  | row _ => true
  | _ => false

namespace Cursor

/-- The answers to the next reads. -/
def answers (c : Cursor) : Nat → List Fetch
  | 0 => []
  | n + 1 => c.read.1 :: c.read.2.answers n

/-- The next reads give rows: they come neither to the end nor to a failure. -/
def Unread (c : Cursor) (n : Nat) : Prop :=
  ∀ x ∈ c.answers n, x.isRow

instance (c : Cursor) (n : Nat) : Decidable (c.Unread n) :=
  inferInstanceAs (Decidable (∀ x ∈ c.answers n, x.isRow))

/-- A read is counted, whatever it gives. -/
theorem reads_read (c : Cursor) : c.read.2.reads = c.reads + 1 := by
  rw [read]
  split
  · rfl
  · split <;> rfl

theorem answers_prefix (c : Cursor) {n m : Nat} (h : n ≤ m) : c.answers n <+: c.answers m := by
  induction n generalizing c m with
  | zero => exact List.nil_prefix
  | succ n ih =>
      obtain ⟨m, rfl⟩ : ∃ k, m = k + 1 := ⟨m - 1, by omega⟩
      exact (List.prefix_cons_inj _).mpr (ih _ (Nat.le_of_succ_le_succ h))

theorem Unread.mono {c : Cursor} {n m : Nat} (h : c.Unread m) (hle : n ≤ m) : c.Unread n :=
  fun x hx => h x ((c.answers_prefix hle).subset hx)

end Cursor

namespace Buffer

/-- The last of the reads gives no row. -/
theorem exists_reads (c : Cursor) :
    ∃ n, (readAll c).2.reads = c.reads + n ∧ ¬ c.Unread n := by
  have hcount {c c' : Cursor} {x : Fetch} (hread : c.read = (x, c')) : c'.reads = c.reads + 1 := by
    rw [← c.reads_read, hread]
  -- a row comes first, whether or not a failure comes later
  have hrow {c c' : Cursor} {row : Row} (hread : c.read = (.row row, c'))
      (ih : ∃ n, (readAll c').2.reads = c'.reads + n ∧ ¬ c'.Unread n) :
      ∃ n, (readAll c).2.reads = c.reads + n ∧ ¬ c.Unread n := by
    rcases ih with ⟨n, hreads, hlast⟩
    refine ⟨n + 1, ?_, fun hunread => hlast fun x hx => hunread x ?_⟩
    · rw [readAll_row hread, hreads, hcount hread]
      omega
    · rw [Cursor.answers, hread]
      exact List.mem_cons_of_mem _ hx
  induction c using readAll.induct with
  | case1 c row c' hread rows after hrest ih => exact hrow hread ih
  | case2 c row c' hread e after hrest ih => exact hrow hread ih
  | case3 c e c' hread =>
      refine ⟨1, by rw [readAll_failure hread, hcount hread], ?_⟩
      simp [Cursor.Unread, Cursor.answers, hread, Fetch.isRow]
  | case4 c c' hread =>
      refine ⟨1, by rw [readAll_done hread, hcount hread], ?_⟩
      simp [Cursor.Unread, Cursor.answers, hread, Fetch.isRow]

/-- A failure is the last that is read, and rows come before it. -/
theorem answers_of_readAll_error {c : Cursor} {e : BackendError} (h : (readAll c).1 = .error e) :
    ∃ rows : List Row, c.answers (rows.length + 1) = rows.map .row ++ [.failure e] := by
  induction c using readAll.induct with
  | case1 c row c' hread rows after hrest ih =>
      rw [readAll_row hread, hrest] at h
      cases h
  | case2 c row c' hread e' after hrest ih =>
      rw [readAll_row hread, hrest] at h
      cases h
      rcases ih (by rw [hrest]) with ⟨rows, hrows⟩
      refine ⟨row :: rows, ?_⟩
      rw [List.length_cons, Cursor.answers, hread, hrows]
      rfl
  | case3 c e' c' hread =>
      rw [readAll_failure hread] at h
      cases h
      refine ⟨[], ?_⟩
      simp [Cursor.answers, hread]
  | case4 c c' hread =>
      rw [readAll_done hread] at h
      cases h

/-- The end is the last that is read, and rows come before it. -/
theorem reads_readAll_ok {c : Cursor} {rows : List Row} (h : (readAll c).1 = .ok rows) :
    (readAll c).2.reads = c.reads + rows.length + 1 := by
  induction c using readAll.induct generalizing rows with
  | case1 c row c' hread rest after hrest ih =>
      rw [readAll_row hread, hrest] at h ⊢
      cases h
      have hreads := ih (by rw [hrest])
      have hcount := c.reads_read
      rw [hread] at hcount
      rw [hrest] at hreads
      rw [hreads, hcount, List.length_cons]
      omega
  | case2 c row c' hread e after hrest ih =>
      rw [readAll_row hread, hrest] at h
      cases h
  | case3 c e c' hread =>
      rw [readAll_failure hread] at h
      cases h
  | case4 c c' hread =>
      rw [readAll_done hread] at h ⊢
      cases h
      have hcount := c.reads_read
      rwa [hread] at hcount

/-- Reading all comes to the end of the cursor or to a failure. -/
theorem not_unread_readAll (c : Cursor) : ¬ c.Unread ((readAll c).2.reads - c.reads) := by
  rcases exists_reads c with ⟨n, hreads, hlast⟩
  rwa [hreads, Nat.add_sub_cancel_left]

theorem drain_eq (target : String) (c : Cursor) : drain target c =
    (((readAll c).1.mapError (cursorError target)).map (ofRows target c.columns),
      (readAll c).2) := by
  rcases hread : readAll c with ⟨_ | rows, after⟩ <;> rw [drain, hread] <;> rfl

end Buffer

/-- Reading the cursor at once gives these rows, and all of its reads come in front of one that
would panic. -/
def Cursor.Drains (c : Cursor) (panic? : Option Nat) (rows : List Row) : Prop :=
  (Buffer.readAll c).1 = .ok rows ∧ ∀ n ∈ panic?, rows.length < n

theorem Cursor.drains_calmly {c : Cursor} {rows : List Row}
    (h : (Buffer.readAll c).1 = .ok rows) : c.Drains none rows :=
  ⟨h, by simp⟩

namespace QueryResult

variable {r r' : QueryResult} {c c' : Cursor}

theorem collect_row {row : Row} (h : r.next c = (.ok (some row), r', c')) :
    r.collect c = ((r'.collect c').1.map (row :: ·), (r'.collect c').2) := by
  rw [collect]
  split
  · rename_i row' result after hnext
    rw [h] at hnext
    cases hnext
    rcases r'.collect c' with ⟨_ | rows, after⟩ <;> rfl
  · rename_i hnext
    rw [h] at hnext
    cases hnext
  · rename_i hnext
    rw [h] at hnext
    cases hnext

theorem collect_end (h : r.next c = (.ok none, r', c')) : r.collect c = (.ok [], r', c') := by
  rw [collect]
  split <;> rename_i hnext <;> rw [h] at hnext <;> cases hnext
  rfl

theorem collect_failure {e : ExecutionError} (h : r.next c = (.error e, r', c')) :
    r.collect c = (.error e, r', c') := by
  rw [collect]
  split <;> rename_i hnext <;> rw [h] at hnext <;> cases hnext
  rfl

/-! ## Streams -/

theorem next_stream {s : Stream} (hs : s.exhausted = false) :
    (stream s).next c = match c.read with
      | (.row row, c') => (.ok (some row), stream s, c')
      | (.failure e, c') => (.error (cursorError s.target e), stream s, c')
      | (.done, c') => (.ok none, stream { s with exhausted := true }, c') := by
  rcases hread : c.read with ⟨row | e | _, c'⟩ <;> simp [next, Stream.next, hs, hread]

/-- A stream that has not come to its end reads its cursor to the end or to a failure, and after an
end it is exhausted. -/
theorem collect_stream_eq {s : Stream} (hs : s.exhausted = false) (c : Cursor) :
    (stream s).collect c = ((Buffer.readAll c).1.mapError (cursorError s.target),
      stream { s with exhausted := (Buffer.readAll c).1.isOk }, (Buffer.readAll c).2) := by
  -- a row comes first, whether or not a failure comes later
  have hrow {c c' : Cursor} {row : Row} (hread : c.read = (.row row, c'))
      (ih : (stream s).collect c' = ((Buffer.readAll c').1.mapError (cursorError s.target),
        stream { s with exhausted := (Buffer.readAll c').1.isOk }, (Buffer.readAll c').2)) :
      (stream s).collect c = ((Buffer.readAll c).1.mapError (cursorError s.target),
        stream { s with exhausted := (Buffer.readAll c).1.isOk }, (Buffer.readAll c).2) := by
    have hnext : (stream s).next c = (.ok (some row), stream s, c') := by
      rw [next_stream hs, hread]
    rw [collect_row hnext, Buffer.readAll_row hread, ih]
    rcases (Buffer.readAll c').1 with _ | rows <;> rfl
  induction c using Buffer.readAll.induct with
  | case1 c row c' hread rows after hrest ih => exact hrow hread ih
  | case2 c row c' hread e after hrest ih => exact hrow hread ih
  | case3 c e c' hread =>
      have hnext : (stream s).next c = (.error (cursorError s.target e), stream s, c') := by
        rw [next_stream hs, hread]
      have hsame : { s with exhausted := false } = s := by rw [← hs]
      rw [collect_failure hnext, Buffer.readAll_failure hread]
      exact congrArg (fun s => (_, stream s, c')) hsame.symm
  | case4 c c' hread =>
      have hnext : (stream s).next c = (.ok none, stream { s with exhausted := true }, c') := by
        rw [next_stream hs, hread]
      rw [collect_end hnext, Buffer.readAll_done hread]
      rfl

/-- A stream that has not come to its end hands out what its cursor has left. -/
theorem collect_stream {s : Stream} (hs : s.exhausted = false) (c : Cursor) :
    ((stream s).collect c).1 = (Buffer.readAll c).1.mapError (cursorError s.target) := by
  rw [collect_stream_eq hs]

/-! ## Buffers -/

/-- A buffer hands out the rows that were not read yet, by induction on their number. -/
theorem collect_memory (b : Buffer) (c : Cursor) :
    ((memory b).collect c).1 = .ok (b.rows.drop b.next) := by
  induction hn : b.rows.length - b.next generalizing b with
  | zero =>
      have hend : b.rows[b.next]? = none := List.getElem?_eq_none (by omega)
      have hnext : (memory b).next c = (.ok none, memory b, c) := by
        simp [next, Buffer.fetch, hend]
      rw [collect_end hnext, List.drop_eq_nil_of_le (by omega)]
  | succ n ih =>
      have hlt : b.next < b.rows.length := by omega
      have hnext : (memory b).next c =
          (.ok (some b.rows[b.next]), memory { b with next := b.next + 1 }, c) := by
        simp [next, Buffer.fetch, hlt]
      have hleft := ih { b with next := b.next + 1 } (by simp only; omega)
      rw [collect_row hnext, hleft, List.drop_eq_getElem_cons hlt]
      rfl

end QueryResult

end ScatterGather
