import Mathlib.Data.List.Basic
import Mathlib.Data.List.Chain
import Mathlib.Data.List.Pairwise
import ScatterGather.Proofs.Buffering

/-!
# Consuming — what becomes of the rows that a stream reads

A stream reads its cursor forward, so the calls on it divide the script of the cursor among them.  A
call hands out the rows that it has read, but for a collecting call that comes to a failure: that
one drops them.  After a failure the next call reads on, and after an end none reads at all.

* `Visit`, `QueryResult.visits` : the calls on a result, each with the reads before and after it;
* `Visit.Takes` : a call that reads, with what it reads and what it answers;
* `Stream.exists_takes` : the calls on a stream that has not seen the end are such;
* `Visit.Accounts` : the calls on one stream, one after the other;
* `Visit.Accounted`, `Stream.rows_accounted` : so every row that was read is accounted for.
-/

namespace ScatterGather

/-! ## Calls -/

/-- What a read operation answers once the end was reached. -/
def Reading.blank : Reading → Answer
  | next => .row (.ok none)
  | collect => .rows (.ok [])

namespace Reading.Answer

/-- The operation that is answered so. -/
def reading : Answer → Reading
  | row _ => .next
  | rows _ => .collect

/-- The rows that are handed out. -/
def handed : Answer → List Row
  | row (.ok (some r)) => [r]
  | rows (.ok rs) => rs
  | _ => []

def error? : Answer → Option ExecutionError
  | row (.error e) => some e
  | rows (.error e) => some e
  | _ => none

/-- Whether the answer tells that there are no more rows. -/
def isEnd : Answer → Bool
  | row (.ok none) => true
  | rows (.ok _) => true
  | _ => false

end Reading.Answer

/-- One call on a result, between two counts of the reads of its cursor. -/
structure Visit where
  op : Reading
  /-- The reads before the call. -/
  start : Nat
  /-- The reads after it. -/
  stop : Nat
  answer : Reading.Answer

namespace QueryResult

/-- The calls on a result that are made one after the other. -/
def visits (r : QueryResult) (c : Cursor) : List Reading → List Visit
  | [] => []
  | op :: ops =>
      let (answer, r', c') := r.perform c op
      ⟨op, c.reads, c'.reads, answer⟩ :: r'.visits c' ops

theorem map_visits (r : QueryResult) (c : Cursor) (ops : List Reading) :
    (r.visits c ops).map Visit.op = ops ∧ (r.visits c ops).map Visit.answer = r.answers c ops := by
  induction ops generalizing r c with
  | nil => exact ⟨rfl, rfl⟩
  | cons op ops ih =>
      rcases ih (r.perform c op).2.1 (r.perform c op).2.2 with ⟨hops, hanswers⟩
      exact ⟨congrArg (op :: ·) hops, congrArg ((r.perform c op).1 :: ·) hanswers⟩

end QueryResult

/-! ## Scripts -/

namespace Cursor

/-- What the read at place `i` gets out of a script, which reports its end once it is used up. -/
def fetched (script : List Fetch) (i : Nat) : Fetch :=
  script[i]?.getD .done

/-- The cursor of a script that has been read `n` times. -/
def advanced (columns : List String) (script : List Fetch) (n : Nat) : Cursor :=
  { columns, script := script.drop n, reads := n, closed := false }

variable {columns : List String} {script : List Fetch} {n : Nat}

theorem read_advanced :
    (advanced columns script n).read = (fetched script n, advanced columns script (n + 1)) := by
  cases hleft : script.drop n with
  | nil =>
      have hle : script.length ≤ n := List.drop_eq_nil_iff.mp hleft
      have hnext : script.drop (n + 1) = [] := List.drop_eq_nil_of_le (by omega)
      simp [advanced, fetched, read, hleft, hnext, List.getElem?_eq_none hle]
  | cons x rest =>
      have hx : script[n]? = some x := by rw [← List.head?_drop, hleft, List.head?_cons]
      have hrest : script.drop (n + 1) = rest := by rw [← List.tail_drop, hleft, List.tail_cons]
      simp [advanced, fetched, read, hleft, hrest, hx]

/-- Reading all comes past rows to a read that gives none, and succeeds if that is the end. -/
theorem readAll_advanced (columns : List String) (script : List Fetch) (n : Nat) :
    ∃ rows : List Row, rows.map .row = (List.range' n rows.length).map (fetched script) ∧
      (Buffer.readAll (advanced columns script n)).2 =
        advanced columns script (n + rows.length + 1) ∧
      ((fetched script (n + rows.length) = .done ∧
          (Buffer.readAll (advanced columns script n)).1 = .ok rows) ∨
        ∃ e, fetched script (n + rows.length) = .failure e ∧
          (Buffer.readAll (advanced columns script n)).1 = .error e) := by
  have hread : (advanced columns script n).read = _ := read_advanced
  -- by induction on what is left of the script; behind it the next read is the end
  induction hk : script.length - n generalizing n with
  | zero =>
      have hdone : fetched script n = .done := by
        simp [fetched, List.getElem?_eq_none (Nat.le_of_sub_eq_zero hk)]
      rw [hdone] at hread
      exact ⟨[], rfl, by rw [Buffer.readAll_done hread]; rfl,
        .inl ⟨hdone, by rw [Buffer.readAll_done hread]⟩⟩
  | succ k ih =>
      cases hx : fetched script n with
      | done =>
          rw [hx] at hread
          exact ⟨[], rfl, by rw [Buffer.readAll_done hread]; rfl,
            .inl ⟨hx, by rw [Buffer.readAll_done hread]⟩⟩
      | failure e =>
          rw [hx] at hread
          exact ⟨[], rfl, by rw [Buffer.readAll_failure hread]; rfl,
            .inr ⟨e, hx, by rw [Buffer.readAll_failure hread]⟩⟩
      | row r =>
          rw [hx] at hread
          rcases ih (n + 1) read_advanced (by omega) with ⟨rows, hrows, hafter, hlast⟩
          have hplace : n + (rows.length + 1) = n + 1 + rows.length := by omega
          rw [Buffer.readAll_row hread]
          refine ⟨r :: rows, ?_, ?_, ?_⟩
          · rw [List.length_cons, List.range'_succ, List.map_cons, List.map_cons, hrows, hx]
          · rw [List.length_cons, hplace]
            exact hafter
          · rw [List.length_cons, hplace]
            rcases hlast with ⟨hdone, hok⟩ | ⟨e, hfailure, herror⟩
            · exact .inl ⟨hdone, by rw [hok]; rfl⟩
            · exact .inr ⟨e, hfailure, by rw [herror]; rfl⟩

end Cursor

/-! ## One call -/

open Cursor (fetched advanced)

namespace Visit

variable {target : String} {script : List Fetch} {v : Visit} {i : Nat}

/-- The read at place `i` of the script is one of the call. -/
def Reads (v : Visit) (i : Nat) : Prop :=
  v.start ≤ i ∧ i < v.stop

/-- The places in the script of the rows that the call hands out. -/
def places (v : Visit) : List Nat :=
  List.range' v.start v.answer.handed.length

/-- The call leaves the cursor alone, and answers that there are no rows. -/
def Silent (v : Visit) : Prop :=
  v.start = v.stop ∧ v.answer = v.op.blank

/-- A call that reads, with what it reads and what it answers. -/
inductive Takes (target : String) (script : List Fetch) : Visit → Prop
  | row {n : Nat} {r : Row} (read : fetched script n = .row r) :
      Takes target script ⟨.next, n, n + 1, .row (.ok (some r))⟩
  | failure {n : Nat} {e : BackendError} (read : fetched script n = .failure e) :
      Takes target script ⟨.next, n, n + 1, .row (.error (cursorError target e))⟩
  | done {n : Nat} (read : fetched script n = .done) :
      Takes target script ⟨.next, n, n + 1, .row (.ok none)⟩
  | rows {n : Nat} {rows : List Row}
      (read : rows.map .row = (List.range' n rows.length).map (fetched script))
      (last : fetched script (n + rows.length) = .done) :
      Takes target script ⟨.collect, n, n + rows.length + 1, .rows (.ok rows)⟩
  | dropped {n : Nat} {rows : List Row} {e : BackendError}
      (read : rows.map .row = (List.range' n rows.length).map (fetched script))
      (last : fetched script (n + rows.length) = .failure e) :
      Takes target script
        ⟨.collect, n, n + rows.length + 1, .rows (.error (cursorError target e))⟩

/-- Where rows were read, every place has a row. -/
theorem exists_row {n : Nat} {rows : List Row}
    (h : rows.map .row = (List.range' n rows.length).map (fetched script)) (hle : n ≤ i)
    (hlt : i < n + rows.length) : ∃ r, fetched script i = .row r := by
  have hmem : fetched script i ∈ rows.map Fetch.row := by
    rw [h]
    exact List.mem_map_of_mem (List.mem_range'_1.mpr ⟨hle, hlt⟩)
  rcases List.mem_map.mp hmem with ⟨r, -, hr⟩
  exact ⟨r, hr.symm⟩

namespace Takes

/-- Rows come before the last read, and the answer tells what that one got. -/
theorem verdict (h : v.Takes target script) : ∃ last, v.start ≤ last ∧ v.stop = last + 1 ∧
    (∀ i, v.start ≤ i → i < last → ∃ r, fetched script i = .row r) ∧
    ((∃ r, fetched script last = .row r ∧ v.answer = .row (.ok (some r))) ∨
      (∃ e, fetched script last = .failure e ∧
        v.answer.error? = some (.cursor target e.message)) ∨
      fetched script last = .done ∧ v.answer.isEnd = true) := by
  have hnone (n : Nat) : ∀ i, n ≤ i → i < n → ∃ r, fetched script i = .row r :=
    fun i hle hlt => absurd hlt (Nat.not_lt.mpr hle)
  cases h with
  | @row n r read => exact ⟨n, Nat.le_refl n, rfl, hnone n, .inl ⟨r, read, rfl⟩⟩
  | @failure n e read => exact ⟨n, Nat.le_refl n, rfl, hnone n, .inr (.inl ⟨e, read, rfl⟩)⟩
  | @done n read => exact ⟨n, Nat.le_refl n, rfl, hnone n, .inr (.inr ⟨read, rfl⟩)⟩
  | @rows n rows read last =>
      exact ⟨_, Nat.le_add_right n _, rfl, fun i => exists_row read, .inr (.inr ⟨last, rfl⟩)⟩
  | @dropped n rows e read last =>
      exact ⟨_, Nat.le_add_right n _, rfl, fun i => exists_row read, .inr (.inl ⟨e, last, rfl⟩)⟩

theorem reading_eq (h : v.Takes target script) : v.answer.reading = v.op := by
  cases h <;> rfl

theorem start_lt (h : v.Takes target script) : v.start < v.stop := by
  rcases h.verdict with ⟨last, hle, hstop, -⟩
  omega

/-- The rows that a call hands out are the first that it has read. -/
theorem map_places (h : v.Takes target script) :
    v.places.map (fetched script) = v.answer.handed.map .row := by
  cases h with
  | row read => simp [places, Reading.Answer.handed, read]
  | failure | done | dropped => rfl
  | rows read last => exact read.symm

theorem reads_of_mem_places (h : v.Takes target script) (hi : i ∈ v.places) : v.Reads i := by
  rcases List.mem_range'_1.mp hi with ⟨hle, hlt⟩
  refine ⟨hle, ?_⟩
  cases h with
  | row | rows =>
      simp only [Reading.Answer.handed, List.length_singleton] at hlt ⊢
      omega
  | failure | done | dropped => exact absurd hlt (Nat.not_lt.mpr hle)

/-- A row that was read is handed out, unless the call collects and comes to a failure. -/
theorem not_mem_places_iff {r : Row} (h : v.Takes target script) (hi : v.Reads i)
    (hr : fetched script i = .row r) :
    i ∉ v.places ↔ v.op = .collect ∧ ∃ e, v.answer.error? = some e := by
  have hlast {j : Nat} (hj : ∀ r, fetched script j ≠ .row r) : i ≠ j := by
    rintro rfl
    exact hj r hr
  rcases hi with ⟨hle, hlt⟩
  -- the last read of a call is no row, unless it is the only one
  cases h with
  | @row n r' read =>
      have hmem : i ∈ List.range' n 1 := List.mem_range'_1.mpr ⟨hle, hlt⟩
      simpa [places, Reading.Answer.handed, Reading.Answer.error?] using hmem
  | @failure n e read | @done n read =>
      have hne : i ≠ n := hlast (by simp [read])
      simp only at hle hlt
      omega
  | @rows n rows read last =>
      have hne : i ≠ n + rows.length := hlast (by simp [last])
      have hmem : i ∈ List.range' n rows.length := by
        simp only at hle hlt
        exact List.mem_range'_1.mpr ⟨hle, by omega⟩
      simpa [places, Reading.Answer.handed, Reading.Answer.error?] using hmem
  | dropped read last => simp [places, Reading.Answer.handed, Reading.Answer.error?]

/-- A read that gives no row is the last of its call. -/
theorem stop_eq (h : v.Takes target script) (hi : v.Reads i)
    (hrow : ∀ r, fetched script i ≠ .row r) : v.stop = i + 1 := by
  rcases h.verdict with ⟨last, -, hstop, hrows, -⟩
  have hlast : ¬ i < last := fun hlt => (hrows i hi.1 hlt).elim hrow
  have hlt : i < v.stop := hi.2
  omega

theorem error?_eq {e : BackendError} (h : v.Takes target script) (hi : v.Reads i)
    (he : fetched script i = .failure e) : v.answer.error? = some (.cursor target e.message) := by
  have hstop := h.stop_eq hi (by simp [he])
  rcases h.verdict with ⟨last, -, hlast, -, hverdict⟩
  obtain rfl : last = i := by omega
  simpa [he] using hverdict

theorem isEnd_of_done (h : v.Takes target script) (hi : v.Reads i)
    (hdone : fetched script i = .done) : v.answer.isEnd = true := by
  have hstop := h.stop_eq hi (by simp [hdone])
  rcases h.verdict with ⟨last, -, hlast, -, hverdict⟩
  obtain rfl : last = i := by omega
  simpa [hdone] using hverdict

/-- No error without a failing read. -/
theorem exists_failure {err : ExecutionError} (h : v.Takes target script)
    (herr : v.answer.error? = some err) :
    ∃ i e, v.Reads i ∧ fetched script i = .failure e ∧ err = .cursor target e.message := by
  rcases h.verdict with ⟨last, hle, hstop, -, ⟨r, -, hr⟩ | ⟨e, he, herror⟩ | ⟨-, hend⟩⟩
  · simp [hr, Reading.Answer.error?] at herr
  · exact ⟨last, e, ⟨hle, by omega⟩, he, Option.some.inj (herr.symm.trans herror)⟩
  · cases h <;> simp_all [Reading.Answer.error?, Reading.Answer.isEnd]

/-- No end without a read that gives it. -/
theorem exists_done (h : v.Takes target script) (hend : v.answer.isEnd = true) :
    ∃ i, v.Reads i ∧ fetched script i = .done := by
  rcases h.verdict with ⟨last, hle, hstop, -, ⟨r, -, hr⟩ | ⟨e, he, herror⟩ | ⟨hdone, -⟩⟩
  · simp [hr, Reading.Answer.isEnd] at hend
  · cases h <;> simp_all [Reading.Answer.error?, Reading.Answer.isEnd]
  · exact ⟨last, ⟨hle, by omega⟩, hdone⟩

end Takes

namespace Silent

theorem places_eq (h : v.Silent) : v.places = [] := by
  rw [places, h.2]
  cases v.op <;> rfl

theorem handed_eq (h : v.Silent) : v.answer.handed = [] := by
  rw [h.2]
  cases v.op <;> rfl

theorem error?_eq (h : v.Silent) : v.answer.error? = none := by
  rw [h.2]
  cases v.op <;> rfl

theorem isEnd_eq (h : v.Silent) : v.answer.isEnd = true := by
  rw [h.2]
  cases v.op <;> rfl

theorem reading_eq (h : v.Silent) : v.answer.reading = v.op := by
  rw [h.2]
  cases v.op <;> rfl

theorem not_reads (h : v.Silent) : ¬ v.Reads i := by
  rintro ⟨hle, hlt⟩
  exact absurd (h.1 ▸ hlt) (Nat.not_lt.mpr hle)

end Silent

theorem stop_eq_of_silent {w : Visit} {later : List Visit} {m : Nat}
    (h : ∀ u ∈ later, u.Silent ∧ u.start = m) (hv : v ∈ later) (hw : w ∈ later) :
    v.stop = w.start := by
  rw [← (h v hv).1.1, (h v hv).2, (h w hw).2]

/-! ## All calls -/

variable {visits : List Visit} {n : Nat}

/-- The calls on a stream whose cursor was read `n` times: they read, one behind the other, until
one comes to an end, and then they are silent. -/
inductive Accounts (target : String) (script : List Fetch) : Nat → List Visit → Prop
  | none {n : Nat} : Accounts target script n []
  | goesOn {v : Visit} {later : List Visit} (takes : v.Takes target script)
      (more : v.answer.isEnd = false) (rest : Accounts target script v.stop later) :
      Accounts target script v.start (v :: later)
  | ends {v : Visit} {later : List Visit} (takes : v.Takes target script)
      (last : v.answer.isEnd = true) (rest : ∀ w ∈ later, w.Silent ∧ w.start = v.stop) :
      Accounts target script v.start (v :: later)

namespace Accounts

theorem cases_of_mem (h : Accounts target script n visits) (hv : v ∈ visits) :
    v.Takes target script ∨ v.Silent := by
  induction h with
  | none => cases hv
  | goesOn takes more rest ih =>
      rcases List.mem_cons.mp hv with rfl | hv
      · exact .inl takes
      · exact ih hv
  | ends takes last rest =>
      rcases List.mem_cons.mp hv with rfl | hv
      · exact .inl takes
      · exact .inr (rest v hv).1

theorem takes_of_reads (h : Accounts target script n visits) (hv : v ∈ visits)
    (hi : v.Reads i) : v.Takes target script :=
  (h.cases_of_mem hv).resolve_right fun hsilent => hsilent.not_reads hi

theorem le_start (h : Accounts target script n visits) (hv : v ∈ visits) : n ≤ v.start := by
  induction h with
  | none => cases hv
  | goesOn takes more rest ih =>
      rcases List.mem_cons.mp hv with rfl | hv
      · exact Nat.le_refl _
      · exact Nat.le_trans (Nat.le_of_lt takes.start_lt) (ih hv)
  | ends takes last rest =>
      rcases List.mem_cons.mp hv with rfl | hv
      · exact Nat.le_refl _
      · exact (rest v hv).2 ▸ Nat.le_of_lt takes.start_lt

/-- The first call reads. -/
theorem of_head? (h : Accounts target script n visits) (hv : v ∈ visits.head?) :
    v.start = n ∧ v.Takes target script := by
  cases h with
  | none => cases hv
  | goesOn takes more rest | ends takes last rest =>
      cases hv
      exact ⟨rfl, takes⟩

/-- Later calls read behind earlier ones. -/
theorem behind (h : Accounts target script n visits) :
    visits.Pairwise fun v w => v.stop ≤ w.start := by
  induction h with
  | none => exact .nil
  | goesOn takes more rest ih => exact .cons (fun w hw => rest.le_start hw) ih
  | ends takes last rest =>
      -- from the end on all calls stand at one place
      refine .cons (fun w hw => Nat.le_of_eq (rest w hw).2.symm) ?_
      exact List.pairwise_of_forall_mem_list fun v hv w hw =>
        Nat.le_of_eq (stop_eq_of_silent rest hv hw)

/-- A read is made by one call only. -/
theorem eq_of_reads {w : Visit} (h : Accounts target script n visits) (hv : v ∈ visits)
    (hw : w ∈ visits) (hvi : v.Reads i) (hwi : w.Reads i) : v = w := by
  have hsymm : Std.Symm fun v w : Visit => v.Reads i → w.Reads i → v = w :=
    ⟨fun v w heq hw hv => (heq hv hw).symm⟩
  have hapart : visits.Pairwise fun v w => v.Reads i → w.Reads i → v = w := by
    refine h.behind.imp fun {v w} hle hv hw => ?_
    exact absurd (Nat.le_trans hle hw.1) (Nat.not_le.mpr hv.2)
  exact hapart.forall_of_forall (fun _ _ _ _ => rfl) hv hw hvi hwi

/-- Every call begins where the one before it has stopped, and reads unless that was the end. -/
theorem chain (h : Accounts target script n visits) : visits.IsChain fun v w =>
    v.stop = w.start ∧ (v.answer.isEnd = false → w.Reads v.stop) := by
  induction h with
  | none => exact .nil
  | @goesOn v later takes more rest ih =>
      refine List.isChain_cons.mpr ⟨fun w hw => ?_, ih⟩
      rcases rest.of_head? hw with ⟨hstart, htakes⟩
      exact ⟨hstart.symm, fun _ => ⟨Nat.le_of_eq hstart, hstart ▸ htakes.start_lt⟩⟩
  | @ends v later takes last rest =>
      -- behind the end every answer tells of it, so nothing is left to be read
      have hnone {w : Visit} (hend : w.answer.isEnd = true) (hmore : w.answer.isEnd = false) :
          False := by
        rw [hend] at hmore
        cases hmore
      refine List.isChain_cons.mpr ⟨fun w hw => ?_, ?_⟩
      · exact ⟨(rest w (List.mem_of_mem_head? hw)).2.symm, fun hmore => (hnone last hmore).elim⟩
      · refine (List.pairwise_of_forall_mem_list fun w hw w' hw' => ?_).isChain
        exact ⟨stop_eq_of_silent rest hw hw',
          fun hmore => (hnone (rest w hw).1.isEnd_eq hmore).elim⟩

/-- Behind an end there is nothing but silence. -/
theorem silent (h : Accounts target script n visits) :
    visits.Pairwise fun v w => v.answer.isEnd = true → w.Silent := by
  induction h with
  | none => exact .nil
  | goesOn takes more rest ih =>
      refine .cons (fun w _ hend => ?_) ih
      rw [more] at hend
      cases hend
  | ends takes last rest =>
      refine .cons (fun w hw _ => (rest w hw).1) ?_
      exact List.pairwise_of_forall_mem_list fun v _ w hw _ => (rest w hw).1

/-- An end is told by the call that comes to it and by those behind it. -/
theorem told (h : Accounts target script n visits) {front back : List Visit}
    (hvisits : visits = front ++ v :: back) (hend : v.answer.isEnd = true) :
    (∃ i, v.Reads i ∧ fetched script i = .done) ∨
      v.Silent ∧ ∃ w ∈ front, ∃ i, w.Reads i ∧ fetched script i = .done := by
  induction h generalizing front with
  | none => simp at hvisits
  | goesOn takes more rest ih =>
      cases front with
      | nil =>
          cases hvisits
          rw [more] at hend
          cases hend
      | cons u front =>
          cases hvisits
          exact (ih rfl).imp_right fun ⟨hsilent, w, hw, hread⟩ =>
            ⟨hsilent, w, .tail _ hw, hread⟩
  | ends takes last rest =>
      cases front with
      | nil =>
          cases hvisits
          exact .inl (takes.exists_done last)
      | cons u front =>
          cases hvisits
          have hsilent := (rest v (List.mem_append_right front (.head back))).1
          exact .inr ⟨hsilent, _, .head front, takes.exists_done last⟩

theorem places_bounds (h : Accounts target script n visits) (hv : v ∈ visits)
    (hi : i ∈ v.places) : v.Reads i := by
  rcases h.cases_of_mem hv with htakes | hsilent
  · exact htakes.reads_of_mem_places hi
  · rw [hsilent.places_eq] at hi
    cases hi

theorem pairwise_places (h : Accounts target script n visits) :
    (visits.flatMap places).Pairwise (· < ·) := by
  refine List.pairwise_flatMap.mpr ⟨fun v _ => List.pairwise_lt_range', ?_⟩
  refine h.behind.imp_of_mem fun {v w} hv hw hle i hi j hj => ?_
  exact Nat.lt_of_lt_of_le (h.places_bounds hv hi).2
    (Nat.le_trans hle (h.places_bounds hw hj).1)

theorem map_places (h : Accounts target script n visits) :
    (visits.flatMap places).map (fetched script) =
      (visits.flatMap fun v => v.answer.handed).map .row := by
  rw [List.map_flatMap, List.map_flatMap]
  refine List.flatMap_congr fun v hv => ?_
  rcases h.cases_of_mem hv with htakes | hsilent
  · exact htakes.map_places
  · rw [hsilent.places_eq, hsilent.handed_eq]
    rfl

/-- Among all calls it is the one that has read a row that hands it out. -/
theorem mem_flatMap_places (h : Accounts target script n visits) (hv : v ∈ visits)
    (hi : v.Reads i) : i ∈ visits.flatMap places ↔ i ∈ v.places := by
  refine ⟨fun hmem => ?_, fun hmem => List.mem_flatMap.mpr ⟨v, hv, hmem⟩⟩
  rcases List.mem_flatMap.mp hmem with ⟨w, hw, hwi⟩
  rwa [h.eq_of_reads hv hw hi (h.places_bounds hw hwi)]

end Accounts

/-! ## The account -/

/-- What holds of the calls on a stream over a script. -/
structure Accounted (target : String) (script : List Fetch) (visits : List Visit) : Prop where
  /-- A call for the next row is answered with one at most, and a call for all rows with rows. -/
  kind : ∀ v ∈ visits, v.answer.reading = v.op
  /-- The first call makes the first read. -/
  first : ∀ v ∈ visits.head?, v.Reads 0
  /-- Every call goes on behind the one before it, with a read at least unless that was the end. -/
  chain : visits.IsChain fun v w => v.stop = w.start ∧ (v.answer.isEnd = false → w.Reads v.stop)
  /-- Rows are handed out in the order of the script, and each at most once. -/
  ordered : (visits.flatMap places).Pairwise (· < ·)
  handed : (visits.flatMap places).map (fetched script) =
    (visits.flatMap fun v => v.answer.handed).map .row
  /-- The rows that were read and not handed out are those of collecting calls that fail. -/
  dropped : ∀ v ∈ visits, ∀ i r, v.Reads i → fetched script i = .row r →
    (i ∉ visits.flatMap places ↔ v.op = .collect ∧ ∃ e, v.answer.error? = some e)
  /-- A failing read ends its call with an error that names the target. -/
  failure : ∀ v ∈ visits, ∀ i e, v.Reads i → fetched script i = .failure e →
    v.stop = i + 1 ∧ v.answer.error? = some (.cursor target e.message)
  /-- Nothing else is an error. -/
  error : ∀ v ∈ visits, ∀ err, v.answer.error? = some err →
    ∃ i e, v.Reads i ∧ fetched script i = .failure e ∧ err = .cursor target e.message
  /-- The end of the cursor ends its call, which tells so. -/
  done : ∀ v ∈ visits, ∀ i, v.Reads i → fetched script i = .done →
    v.stop = i + 1 ∧ v.answer.isEnd = true
  /-- It is told by the call that has read it, or by a silent one behind a call that has. -/
  told : ∀ front v back, visits = front ++ v :: back → v.answer.isEnd = true →
    (∃ i, v.Reads i ∧ fetched script i = .done) ∨
      v.Silent ∧ ∃ w ∈ front, ∃ i, w.Reads i ∧ fetched script i = .done
  /-- From the first end on no call reads, and all answer that there are no rows. -/
  final : visits.Pairwise fun v w => v.answer.isEnd = true → w.Silent

theorem Accounts.accounted (h : Accounts target script 0 visits) :
    Accounted target script visits where
  kind v hv := by
    rcases h.cases_of_mem hv with htakes | hsilent
    · exact htakes.reading_eq
    · exact hsilent.reading_eq
  first _ hv := by
    rcases h.of_head? hv with ⟨hstart, htakes⟩
    exact ⟨Nat.le_of_eq hstart, hstart ▸ htakes.start_lt⟩
  chain := h.chain
  ordered := h.pairwise_places
  handed := h.map_places
  dropped v hv i r hi hr := by
    rw [h.mem_flatMap_places hv hi]
    exact (h.takes_of_reads hv hi).not_mem_places_iff hi hr
  failure v hv i e hi he := by
    have htakes := h.takes_of_reads hv hi
    exact ⟨htakes.stop_eq hi (by simp [he]), htakes.error?_eq hi he⟩
  error v hv err herr := by
    rcases h.cases_of_mem hv with htakes | hsilent
    · exact htakes.exists_failure herr
    · rw [hsilent.error?_eq] at herr
      cases herr
  done v hv i hi hdone := by
    have htakes := h.takes_of_reads hv hi
    exact ⟨htakes.stop_eq hi (by simp [hdone]), htakes.isEnd_of_done hi hdone⟩
  told _ _ _ hvisits hend := h.told hvisits hend
  final := h.silent

end Visit

/-! ## Streams -/

namespace Stream

open QueryResult (stream)

variable {s : Stream} {columns : List String} {script : List Fetch} {n : Nat}

/-- What a call on a stream does that has not seen the end. -/
theorem exists_takes (hs : s.exhausted = false) (columns : List String) (script : List Fetch)
    (n : Nat) (op : Reading) :
    ∃ (v : Visit) (s' : Stream), v.Takes s.target script ∧ v.op = op ∧ v.start = n ∧
      (stream s).perform (advanced columns script n) op =
        (v.answer, stream s', advanced columns script v.stop) ∧
      s'.exhausted = v.answer.isEnd ∧ s'.target = s.target := by
  -- one read for the next row, and for all rows as many as there are before an end or a failure
  cases op with
  | next =>
      have hnext := QueryResult.next_stream hs (c := advanced columns script n)
      rw [Cursor.read_advanced] at hnext
      cases hread : fetched script n with
      | row r =>
          rw [hread] at hnext
          exact ⟨_, s, .row hread, rfl, rfl, by rw [QueryResult.perform, hnext], hs, rfl⟩
      | failure e =>
          rw [hread] at hnext
          exact ⟨_, s, .failure hread, rfl, rfl, by rw [QueryResult.perform, hnext], hs, rfl⟩
      | done =>
          rw [hread] at hnext
          exact ⟨_, { s with exhausted := true }, .done hread, rfl, rfl,
            by rw [QueryResult.perform, hnext], rfl, rfl⟩
  | collect =>
      have hcollect := QueryResult.collect_stream_eq hs (advanced columns script n)
      rcases Cursor.readAll_advanced columns script n with
        ⟨rows, hrows, hafter, ⟨hdone, hok⟩ | ⟨e, hfailure, herror⟩⟩
      · rw [hok, hafter] at hcollect
        exact ⟨_, { s with exhausted := true }, .rows hrows hdone, rfl, rfl,
          by rw [QueryResult.perform, hcollect]; rfl, rfl, rfl⟩
      · rw [herror, hafter] at hcollect
        exact ⟨_, { s with exhausted := false }, .dropped hrows hfailure, rfl, rfl,
          by rw [QueryResult.perform, hcollect]; rfl, rfl, rfl⟩

theorem perform_exhausted (hs : s.exhausted = true) (c : Cursor) (op : Reading) :
    (stream s).perform c op = (op.blank, stream s, c) := by
  have hnext : (stream s).next c = (.ok none, stream s, c) := by
    simp [QueryResult.next, Stream.next, hs]
  cases op with
  | next => rw [QueryResult.perform, hnext]; rfl
  | collect => rw [QueryResult.perform, QueryResult.collect_end hnext]; rfl

theorem silent_visits (hs : s.exhausted = true) (c : Cursor) (ops : List Reading) :
    ∀ v ∈ (stream s).visits c ops, v.Silent ∧ v.start = c.reads := by
  induction ops with
  | nil => simp [QueryResult.visits]
  | cons op ops ih =>
      rw [QueryResult.visits, perform_exhausted hs]
      rintro v hv
      rcases List.mem_cons.mp hv with rfl | hv
      · exact ⟨⟨rfl, rfl⟩, rfl⟩
      · exact ih v hv

theorem accounts_visits (hs : s.exhausted = false) (ops : List Reading) :
    Visit.Accounts s.target script n ((stream s).visits (advanced columns script n) ops) := by
  induction ops generalizing s n with
  | nil => exact .none
  | cons op ops ih =>
      rcases exists_takes hs columns script n op with
        ⟨v, s', htakes, rfl, rfl, hperform, hexhausted, htarget⟩
      rw [QueryResult.visits, hperform]
      -- the stream remembers an end, and nothing but an end
      cases hend : v.answer.isEnd with
      | false => exact .goesOn htakes hend (htarget ▸ ih (hexhausted.trans hend))
      | true => exact .ends htakes hend (silent_visits (hexhausted.trans hend) _ ops)

/-- Whatever a cursor has to give and however its stream is read, every row that is read is handed
out once and in its place, or dropped by a collecting call that comes to a failure behind it. -/
theorem rows_accounted (target : String) (id : Nat) (columns : List String)
    (script : List Fetch) (connection : Connection) (ops : List Reading) :
    let c := Cursor.ofScript columns script
    let r := stream (.ofCursor target id c connection)
    (r.visits c ops).map Visit.op = ops ∧ (r.visits c ops).map Visit.answer = r.answers c ops ∧
      Visit.Accounted target script (r.visits c ops) := by
  intro c r
  have haccounts : Visit.Accounts target script 0 (r.visits c ops) :=
    accounts_visits (s := .ofCursor target id c connection) rfl ops
  exact ⟨(r.map_visits c ops).1, (r.map_visits c ops).2, haccounts.accounted⟩

/-- The row in front of a failure is lost to the call that collects, the one behind it is the next
to be handed out, and what stands behind the end is never read. -/
example : (stream (.ofCursor "ds_0" 0 (.ofScript ["id"] []) ⟨0, "ds_0"⟩)).answers
    (.ofScript ["id"]
      [.row [.int64 1], .failure (.ofMessage "gone"), .row [.int64 2], .done, .row [.int64 3]])
    [.collect, .next, .next, .next, .collect] =
      [.rows (.error (.cursor "ds_0" "gone")), .row (.ok (some [.int64 2])), .row (.ok none),
        .row (.ok none), .rows (.ok [])] := by
  cbv

end Stream

end ScatterGather
