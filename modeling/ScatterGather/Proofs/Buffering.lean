import ScatterGather.Proofs.Reading

/-!
# Buffering — a result that was read at once reads like one that is read as it is asked

A stream asks its cursor for every row until it has seen the end, and a buffer walks along rows that
were read before.  While the two are read side by side the stream has either seen the end, and then
the buffer has none left, or what its cursor still gives is what the buffer has left.  Every read
gives the same answer on both sides and keeps it so.

* `Reading`, `QueryResult.perform` : the two read operations;
* `QueryResult.answers` : what a sequence of reads gives;
* `Stream.Mirrors` : a stream that is as far as a buffer;
* `Stream.Mirrors.next`, `Stream.Mirrors.collect` : each operation keeps it so;
* `Buffer.drain_reads_like_stream` : so a drained cursor reads like a stream of it.
-/

namespace ScatterGather

/-! ## Sequences of reads -/

inductive Reading
  | next
  | collect

/-- The answer to one read operation. -/
inductive Reading.Answer
  | row (result : Except ExecutionError (Option Row))
  | rows (result : Except ExecutionError (List Row))

namespace QueryResult

def perform (r : QueryResult) (c : Cursor) : Reading → Reading.Answer × QueryResult × Cursor
  | .next => ((.row (r.next c).1), (r.next c).2)
  | .collect => ((.rows (r.collect c).1), (r.collect c).2)

/-- The answers to reads that are made one after the other. -/
def answers (r : QueryResult) (c : Cursor) : List Reading → List Reading.Answer
  | [] => []
  | op :: ops =>
      let (answer, r', c') := r.perform c op
      answer :: r'.answers c' ops

end QueryResult

/-! ## Side by side -/

open QueryResult (stream memory)

variable {s : Stream} {b : Buffer} {c : Cursor}

namespace Stream

/-- A stream with its cursor, and a buffer that is as far as the stream. -/
inductive Mirrors (s : Stream) (c : Cursor) (b : Buffer) : Prop
  | reading (fresh : s.exhausted = false)
      (left : (Buffer.readAll c).1 = .ok (b.rows.drop b.next))
  | ended (exhausted : s.exhausted = true) (left : b.rows.length ≤ b.next)

namespace Mirrors

/-- One row, or the end on both sides. -/
theorem next (h : s.Mirrors c b) : ∃ row s' c' b', (stream s).next c = (.ok row, stream s', c') ∧
    (∀ d, (memory b).next d = (.ok row, memory b', d)) ∧ s'.Mirrors c' b' := by
  cases h with
  | ended exhausted left =>
      have hend : b.rows[b.next]? = none := List.getElem?_eq_none left
      refine ⟨none, s, c, b, by simp [QueryResult.next, Stream.next, exhausted], ?_,
        .ended exhausted left⟩
      intro d
      simp [QueryResult.next, Buffer.fetch, hend]
  | reading fresh left =>
      rcases hread : c.read with ⟨row | e | _, c'⟩
      · rw [Buffer.readAll_row hread] at left
        rcases hrest : (Buffer.readAll c').1 with e | rows
        · rw [hrest] at left
          cases left
        · -- the buffer has this row next, and behind it what the cursor gives from now on
          rw [hrest] at left
          have hrows : row :: rows = b.rows.drop b.next := Except.ok.inj left
          have hlt : b.next < b.rows.length := by
            have hlength := congrArg List.length hrows
            rw [List.length_cons, List.length_drop] at hlength
            omega
          rw [List.drop_eq_getElem_cons hlt, List.cons.injEq] at hrows
          refine ⟨some row, s, c', { b with next := b.next + 1 },
            by rw [QueryResult.next_stream fresh, hread], ?_, .reading fresh ?_⟩
          · intro d
            simp [QueryResult.next, Buffer.fetch, hlt, hrows.1]
          · rw [hrest, hrows.2]
      · rw [Buffer.readAll_failure hread] at left
        cases left
      · rw [Buffer.readAll_done hread] at left
        have hend : b.rows.length ≤ b.next := List.drop_eq_nil_iff.mp (Except.ok.inj left).symm
        refine ⟨none, { s with exhausted := true }, c', b,
          by rw [QueryResult.next_stream fresh, hread], ?_, .ended rfl hend⟩
        intro d
        simp [QueryResult.next, Buffer.fetch, List.getElem?_eq_none hend]

/-- By induction on the rows that are collected, each of which is one read on both sides. -/
theorem collect (h : s.Mirrors c b) : ∃ rows s' c' b',
    (stream s).collect c = (.ok rows, stream s', c') ∧
    (∀ d, (memory b).collect d = (.ok rows, memory b', d)) ∧ s'.Mirrors c' b' := by
  induction hn : b.rows.length - b.next using Nat.strongRecOn generalizing s c b with
  | ind n ih =>
      rcases h.next with ⟨row, s', c', b', hstream, hmemory, hmirrors⟩
      cases row with
      | none =>
          refine ⟨[], s', c', b', QueryResult.collect_end hstream, ?_, hmirrors⟩
          exact fun d => QueryResult.collect_end (hmemory d)
      | some row =>
          have hlt : b'.rows.length - b'.next < n := hn ▸ QueryResult.next_some_lt (hmemory c)
          rcases ih _ hlt hmirrors rfl with ⟨rows, s'', c'', b'', hrest, hrest', hmirrors'⟩
          refine ⟨row :: rows, s'', c'', b'', ?_, ?_, hmirrors'⟩
          · rw [QueryResult.collect_row hstream, hrest]
            rfl
          · intro d
            rw [QueryResult.collect_row (hmemory d), hrest' d]
            rfl

/-- Every read has the same answer on both sides. -/
theorem perform (h : s.Mirrors c b) (op : Reading) : ∃ answer s' c' b',
    (stream s).perform c op = (answer, stream s', c') ∧
    (∀ d, (memory b).perform d op = (answer, memory b', d)) ∧ s'.Mirrors c' b' := by
  cases op with
  | next =>
      rcases h.next with ⟨row, s', c', b', hstream, hmemory, hmirrors⟩
      refine ⟨.row (.ok row), s', c', b', ?_, ?_, hmirrors⟩
      · rw [QueryResult.perform, hstream]
      · exact fun d => by rw [QueryResult.perform, hmemory d]
  | collect =>
      rcases h.collect with ⟨rows, s', c', b', hstream, hmemory, hmirrors⟩
      refine ⟨.rows (.ok rows), s', c', b', ?_, ?_, hmirrors⟩
      · rw [QueryResult.perform, hstream]
      · exact fun d => by rw [QueryResult.perform, hmemory d]

theorem answers (h : s.Mirrors c b) (ops : List Reading) (d : Cursor) :
    (memory b).answers d ops = (stream s).answers c ops := by
  induction ops generalizing s c b with
  | nil => rfl
  | cons op ops ih =>
      rcases h.perform op with ⟨answer, s', c', b', hstream, hmemory, hmirrors⟩
      rw [QueryResult.answers, QueryResult.answers, hstream, hmemory d]
      exact congrArg (answer :: ·) (ih hmirrors)

end Mirrors

end Stream

/-! ## Draining -/

namespace Buffer

/-- Draining a cursor and collecting a fresh stream of it are one and the same: both succeed or both
fail, with the error of the same read, and they leave the cursor in the same state, with the same
number of reads behind it.  After a success the buffer has the columns of the stream, and any
sequence of reads has the answers that it has on a fresh stream of the cursor as it was. -/
theorem drain_reads_like_stream (target : String) (id : Nat) (c : Cursor)
    (connection : Connection) :
    let s := Stream.ofCursor target id c connection
    (drain target c).1.isOk = ((stream s).collect c).1.isOk ∧
    (∀ b, (drain target c).1 = .ok b → b.target = s.target ∧ b.columns = s.columns ∧
      ∀ ops d, (memory b).answers d ops = (stream s).answers c ops) ∧
    (∀ e, (drain target c).1 = .error e → ((stream s).collect c).1 = .error e ∧
      ∃ (rows : List Row) (cause : BackendError),
        c.answers (rows.length + 1) = rows.map .row ++ [.failure cause] ∧
          e = .cursor target cause.message) ∧
    (drain target c).2 = ((stream s).collect c).2.2 ∧
    (drain target c).2.reads = ((stream s).collect c).2.2.reads := by
  intro s
  have hcollect := QueryResult.collect_stream_eq (s := s) rfl c
  rcases hall : readAll c with ⟨cause | rows, c'⟩
  · have hdrain : drain target c = (.error (cursorError target cause), c') := by rw [drain, hall]
    rw [hall] at hcollect
    rw [hdrain, hcollect]
    refine ⟨rfl, by rintro b ⟨⟩, ?_, rfl, rfl⟩
    rintro e ⟨⟩
    rcases answers_of_readAll_error (congrArg Prod.fst hall) with ⟨rows, hrows⟩
    exact ⟨rfl, rows, cause, hrows, rfl⟩
  · have hdrain : drain target c = (.ok (ofRows target c.columns rows), c') := by rw [drain, hall]
    rw [hall] at hcollect
    rw [hdrain, hcollect]
    refine ⟨rfl, ?_, by rintro e ⟨⟩, rfl, rfl⟩
    rintro b ⟨⟩
    have hmirrors : s.Mirrors c (ofRows target c.columns rows) :=
      .reading rfl (congrArg Prod.fst hall)
    exact ⟨rfl, rfl, hmirrors.answers⟩

end Buffer

end ScatterGather
