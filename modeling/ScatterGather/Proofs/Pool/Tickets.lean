import ScatterGather.Proofs.Pool.Counts

/-!
# Tickets — which job is which

Two jobs of a pool may be equal, so the pool alone does not show which of them waits, runs or is
over.  Here each job carries the number under which it was sent, and a book is kept of the jobs
that were taken and of those that are over.  Neither changes what the pool does.

* `Pool.map`, `Pool.work?_map`, `Pool.step?_map` : a pool moves as its image does;
* `Ticket` : a job with its number;
* `Book`, `Book.step?` : a pool of tickets, and what has become of them;
* `Book.moves_eq` : without its tickets a book is the pool that makes the same moves.
-/

namespace ScatterGather

variable {ι κ ω : Type}

namespace Progress

def map (f : ι → κ) : Progress ι → Progress κ
  | continues job => continues (f job)
  | ends => ends
  | panics => panics

/-- Whether the job panicked, if it is over. -/
def outcome? : Progress ι → Option Bool
  | continues _ => none
  | ends => some false
  | panics => some true

end Progress

namespace Worker

def map (f : ι → κ) : Worker ι → Worker κ
  | idle => idle
  | busy job => busy (f job)
  | unwound => unwound
  | finished panicked => finished panicked
  | gone => gone

@[simp] theorem isWaiting_map (f : ι → κ) (x : Worker ι) : (x.map f).isWaiting = x.isWaiting := by
  cases x <;> rfl

@[simp] theorem map_eq_gone {f : ι → κ} {x : Worker ι} : x.map f = gone ↔ x = gone := by
  cases x <;> simp [map]

end Worker

namespace Pool

/-! ## Images of pools -/

def map (f : ι → κ) (p : Pool ι) : Pool κ :=
  { queue := p.queue.map f
    workers := p.workers.map (Worker.map f)
    uncounted := p.uncounted
    submitted := p.submitted
    completed := p.completed
    panicked := p.panicked
    closed := p.closed }

def Move.map (f : ι → κ) : Move ι → Move κ
  | send job => send (f job)
  | tally => tally
  | close => close
  | work w => work w

variable {f : ι → κ} {advance : ι → ω → Progress ι × ω} {advance' : κ → ω → Progress κ × ω}

theorem map_new (f : ι → κ) (threads : Nat) : (new threads).map f = new threads := by
  simp [map, new, Worker.map]

theorem map_assign (f : ι → κ) (p : Pool ι) (w : Nat) (x : Worker ι) :
    (p.assign w x).map f = (p.map f).assign w (x.map f) := by
  simp [map, assign, List.map_set]

theorem isQuiet_map (f : ι → κ) (p : Pool ι) : (p.map f).isQuiet = p.isQuiet := by
  simp [isQuiet, map, List.all_map, Function.comp_def]

/-- An image moves as the pool does if its jobs make the steps of the jobs. -/
theorem work?_map
    (hadvance : ∀ job world, advance' (f job) world =
      ((advance job world).1.map f, (advance job world).2))
    (p : Pool ι) (world : ω) (w : Nat) :
    (p.map f).work? advance' world w =
      (p.work? advance world w).map fun s => (s.1.map f, s.2) := by
  have hworker : (p.map f).workers[w]? = p.workers[w]?.map (Worker.map f) := List.getElem?_map ..
  cases hw : p.workers[w]? with
  | none => simp [work?, hworker, hw]
  | some x =>
      cases x with
      | idle =>
          cases hq : p.queue with
          | nil =>
              cases hc : p.closed <;>
                simp [work?, hw, hq, hc, map, assign, Worker.map, List.map_set]
          | cons job rest =>
              simp [work?, hw, hq, map, assign, Worker.map, List.map_set]
      | busy job =>
          -- the only step that looks into a job
          rcases hadv : advance job world with ⟨progress, world'⟩
          have hadv' : advance' (f job) world = (progress.map f, world') := by
            rw [hadvance, hadv]
          cases progress <;>
            simp [work?, hworker, hw, hadv, hadv', Progress.map, Worker.map, map_assign]
      | unwound | finished =>
          simp [work?, hw, map, assign, Worker.map, List.map_set]
      | gone => simp [work?, hworker, hw, Worker.map]

theorem step?_map
    (hadvance : ∀ job world, advance' (f job) world =
      ((advance job world).1.map f, (advance job world).2))
    (p : Pool ι) (world : ω) (m : Move ι) :
    (p.map f).step? advance' world (m.map f) =
      (p.step? advance world m).map fun s => (s.1.map f, s.2) := by
  cases m with
  | work w => exact work?_map hadvance p world w
  | send job => cases hc : p.closed <;> simp [step?, Move.map, map, send, hc]
  | tally => by_cases hu : p.uncounted = 0 <;> simp [step?, Move.map, map, tally, hu]
  | close => cases hc : p.closed <;> simp [step?, Move.map, map, close, hc]

/-- A move of the pool together with the world of its jobs. -/
def moved? (advance : ι → ω → Progress ι × ω) (s : Pool ι × ω) (m : Move ι) :
    Option (Pool ι × ω) :=
  s.1.step? advance s.2 m

/-! ## What a move does to a job -/

/-- The job that is sent. -/
def Move.sent : Move ι → List ι
  | send job => [job]
  | _ => []

/-- The job that a worker takes. -/
def taking (p : Pool ι) : Move ι → List ι
  | .work w =>
    match p.workers[w]? with
    | some .idle => p.queue.head?.toList
    | _ => []
  | _ => []

/-- The job that is over, and whether it panicked. -/
def ending (advance : ι → ω → Progress ι × ω) (p : Pool ι) (world : ω) : Move ι → List (ι × Bool)
  | .work w =>
    match p.workers[w]? with
    | some (.busy job) => (advance job world).1.outcome?.toList.map (job, ·)
    | _ => []
  | _ => []

end Pool

/-! ## Tickets -/

structure Ticket (ι : Type) where
  number : Nat
  job : ι

namespace Ticket

/-- A job keeps its number from step to step. -/
def advance (advance : ι → ω → Progress ι × ω) (t : Ticket ι) (world : ω) :
    Progress (Ticket ι) × ω :=
  ((advance t.job world).1.map (Ticket.mk t.number), (advance t.job world).2)

theorem advance_job (advance : ι → ω → Progress ι × ω) (t : Ticket ι) (world : ω) :
    advance t.job world =
      ((t.advance advance world).1.map Ticket.job, (t.advance advance world).2) := by
  rcases hadv : advance t.job world with ⟨progress, world'⟩
  cases progress <;> simp [Ticket.advance, hadv, Progress.map]

/-- The jobs with their numbers, counted from the first. -/
def row (jobs : List ι) : List (Ticket ι) :=
  jobs.zipIdx.map fun p => ⟨p.2, p.1⟩

theorem row_snoc (jobs : List ι) (job : ι) :
    row (jobs ++ [job]) = row jobs ++ [⟨jobs.length, job⟩] := by
  simp [row, List.zipIdx_append]

theorem map_number_row (jobs : List ι) : (row jobs).map number = List.range jobs.length := by
  rw [row, List.map_map, List.range_eq_range', ← List.zipIdx_map_snd 0 jobs]
  rfl

end Ticket

/-- A pool of tickets with what has become of them. -/
structure Book (ι ω : Type) where
  pool : Pool (Ticket ι)
  world : ω
  /-- The jobs that were sent, in this order. -/
  accepted : List ι
  /-- The tickets that workers took, in this order. -/
  taken : List (Ticket ι)
  /-- The numbers of the jobs that are over, with whether they panicked. -/
  ended : List (Nat × Bool)

namespace Book

def new (threads : Nat) (world : ω) : Book ι ω :=
  ⟨.new threads, world, [], [], []⟩

def step? (advance : ι → ω → Progress ι × ω) (b : Book ι ω) (m : Pool.Move ι) : Option (Book ι ω) :=
  let ticketed := m.map (Ticket.mk b.accepted.length)
  (b.pool.step? (Ticket.advance advance) b.world ticketed).map fun s =>
    { pool := s.1
      world := s.2
      accepted := b.accepted ++ m.sent
      taken := b.taken ++ b.pool.taking ticketed
      ended := b.ended ++ (b.pool.ending (Ticket.advance advance) b.world ticketed).map fun e =>
        (e.1.number, e.2) }

/-- What is left of a book without its tickets. -/
def plain (b : Book ι ω) : Pool ι × ω :=
  (b.pool.map Ticket.job, b.world)

variable {advance : ι → ω → Progress ι × ω} {b b' : Book ι ω} {m : Pool.Move ι}

theorem plain_new (threads : Nat) (world : ω) :
    (new threads world : Book ι ω).plain = (Pool.new threads, world) := by
  rw [plain, new, Pool.map_new]

theorem moved?_plain (advance : ι → ω → Progress ι × ω) (b : Book ι ω) (m : Pool.Move ι) :
    Pool.moved? advance b.plain m = (b.step? advance m).map plain := by
  have hunticket : (m.map (Ticket.mk b.accepted.length)).map Ticket.job = m := by
    cases m <;> rfl
  have hmap := Pool.step?_map (Ticket.advance_job advance) b.pool b.world
    (m.map (Ticket.mk b.accepted.length))
  rw [hunticket] at hmap
  rw [Pool.moved?, plain, hmap, step?, Option.map_map]
  rfl

/-- The pool makes some moves if and only if its book does. -/
theorem moves_eq (advance : ι → ω → Progress ι × ω) (b : Book ι ω) (ms : List (Pool.Move ι)) :
    ms.foldlM (Pool.moved? advance) b.plain = (ms.foldlM (step? advance) b).map plain := by
  induction ms generalizing b with
  | nil => rfl
  | cons m ms ih =>
      rw [List.foldlM_cons, List.foldlM_cons, moved?_plain]
      cases b.step? advance m with
      | none => rfl
      | some b' => exact ih b'

theorem accepted_of_moves {ms : List (Pool.Move ι)} (h : ms.foldlM (step? advance) b = some b') :
    b'.accepted = b.accepted ++ ms.flatMap Pool.Move.sent := by
  induction ms generalizing b with
  | nil =>
      cases h
      simp
  | cons m ms ih =>
      rcases Option.bind_eq_some_iff.mp h with ⟨b₁, hm, hrest⟩
      rcases Option.map_eq_some_iff.mp hm with ⟨s, -, rfl⟩
      rw [ih hrest, List.flatMap_cons, List.append_assoc]

end Book

end ScatterGather
