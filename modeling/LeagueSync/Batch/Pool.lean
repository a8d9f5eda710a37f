import LeagueSync.Batch.Syncer

/-!
# LeagueSync.Batch.Pool

Syncing the entries of a job with several syncs in flight. A pool has permits, and as many units
as there are permits may be in flight at once. A sync that has ended gives its permit back, and its
result waits to be collected. `Pool.move?` says which moves are possible at all, and a `Dispatch`
picks one of them after the other. The one of the program (`Pool.nextMove?`) starts units in the
order of the list, as soon as a permit is free; of the units in flight that one ends first whose
time comes first, and its result is collected at once.

* `Pool.size_move?`: every move brings the batch nearer to its end, so `Pool.run` ends.
* `Pool.isSome_move?_iff`, `Pool.move?_eq_some_iff`: which moves are possible and where they lead.
* `Pool.nextMove?_eq_none_iff`: the program's dispatch goes on until the batch is over.
-/

namespace LeagueSync

structure Flight where
  id : EntryId
  endsAt : Nat
  ending : Ending

/-- A batch under way. -/
structure Pool (τ : Type) where
  /-- How many syncs may be in flight at once. -/
  permits : Nat
  now : Nat
  work : τ
  /-- The units that have not started. -/
  waiting : List SyncUnit
  /-- The syncs in flight in the order in which they started. -/
  flights : List Flight := []
  /-- The results that wait to be collected, in the order in which the syncs ended. -/
  ended : Results := []
  /-- The results in the order in which they were collected. -/
  results : Results := []
  permits_pos : 0 < permits
  flights_le : flights.length ≤ permits := by simp

/-- What may happen next in a pool. -/
inductive PoolMove where
  /-- The unit at this place of those that wait starts. -/
  | start (place : Nat)
  /-- The flight at this place ends. -/
  | finish (place : Nat)
  /-- The result at this place of those that wait is collected. -/
  | collect (place : Nat)
  deriving DecidableEq

namespace Pool

variable {τ : Type}

def fresh (permits : Nat) (pos : 0 < permits) (units : List SyncUnit) (now : Nat) (work : τ) :
    Pool τ where
  permits := permits
  now := now
  work := work
  waiting := units
  permits_pos := pos

def start (s : Syncer τ) (p : Pool τ) (place : Nat) (unit : SyncUnit)
    (free : p.flights.length < p.permits) : Pool τ :=
  let (sync, work) := s.sync p.now unit p.work
  { p with
    work
    waiting := p.waiting.eraseIdx place
    flights := p.flights ++ [⟨unit.1, p.now + sync.duration, sync.ending⟩]
    flights_le := by
      rw [List.length_append]
      exact free }

/-- Ends a flight; time passes until then. -/
def finish (p : Pool τ) (place : Nat) (flight : Flight) : Pool τ :=
  { p with
    now := max p.now flight.endsAt
    flights := p.flights.eraseIdx place
    ended := p.ended ++ [(flight.id, flight.ending.result)]
    flights_le := Nat.le_trans (List.length_eraseIdx_le p.flights place) p.flights_le }

def collect (p : Pool τ) (place : Nat) (result : EntryId × Except SyncError Unit) : Pool τ :=
  { p with ended := p.ended.eraseIdx place, results := p.results ++ [result] }

def move? (s : Syncer τ) (p : Pool τ) : PoolMove → Option (Pool τ)
  | .start place =>
    if free : p.flights.length < p.permits then
      (p.waiting[place]?).map fun unit => p.start s place unit free
    else none
  | .finish place => (p.flights[place]?).map fun flight => p.finish place flight
  | .collect place => (p.ended[place]?).map fun result => p.collect place result

def Allows (p : Pool τ) : PoolMove → Prop
  | .start place => p.flights.length < p.permits ∧ place < p.waiting.length
  | .finish place => place < p.flights.length
  | .collect place => place < p.ended.length

/-- Whether all results are collected. -/
def IsOver (p : Pool τ) : Prop :=
  p.waiting = [] ∧ p.flights = [] ∧ p.ended = []

/-- How many moves are still to come. -/
def size (p : Pool τ) : Nat :=
  3 * p.waiting.length + 2 * p.flights.length + p.ended.length

theorem isSome_move?_iff (s : Syncer τ) (p : Pool τ) (m : PoolMove) :
    (p.move? s m).isSome ↔ p.Allows m := by
  cases m with
  | start place =>
    simp only [move?, Allows]
    split
    · next free => simp [free]
    · next full => simp [full]
  | finish place => simp [move?, Allows]
  | collect place => simp [move?, Allows]

theorem exists_move? (s : Syncer τ) {p : Pool τ} {m : PoolMove} (h : p.Allows m) :
    ∃ q, p.move? s m = some q :=
  Option.isSome_iff_exists.1 ((isSome_move?_iff s p m).2 h)

/-- The pools before and after a move. -/
inductive Moves (s : Syncer τ) (p : Pool τ) : PoolMove → Pool τ → Prop where
  | start {place : Nat} {unit : SyncUnit} (free : p.flights.length < p.permits) :
      p.waiting[place]? = some unit → Moves s p (.start place) (p.start s place unit free)
  | finish {place : Nat} {flight : Flight} :
      p.flights[place]? = some flight → Moves s p (.finish place) (p.finish place flight)
  | collect {place : Nat} {result : EntryId × Except SyncError Unit} :
      p.ended[place]? = some result → Moves s p (.collect place) (p.collect place result)

theorem move?_eq_some_iff {s : Syncer τ} {p q : Pool τ} {m : PoolMove} :
    p.move? s m = some q ↔ p.Moves s m q := by
  constructor
  · intro h
    cases m with
    | start place =>
      simp only [move?] at h
      split at h
      · next free =>
        obtain ⟨unit, found, rfl⟩ := Option.map_eq_some_iff.1 h
        exact .start free found
      · cases h
    | finish place =>
      obtain ⟨flight, found, rfl⟩ := Option.map_eq_some_iff.1 h
      exact .finish found
    | collect place =>
      obtain ⟨result, found, rfl⟩ := Option.map_eq_some_iff.1 h
      exact .collect found
  · intro h
    cases h with
    | start free found => rw [move?, dif_pos free, found, Option.map_some]
    | finish found => rw [move?, found, Option.map_some]
    | collect found => rw [move?, found, Option.map_some]

theorem size_move? {s : Syncer τ} {p q : Pool τ} {m : PoolMove} (h : p.move? s m = some q) :
    q.size + 1 = p.size := by
  cases move?_eq_some_iff.1 h with
  | start free found =>
    have inside := (List.getElem?_eq_some_iff.1 found).1
    simp only [size, start, List.length_eraseIdx_of_lt inside, List.length_append,
      List.length_singleton]
    omega
  | finish found =>
    have inside := (List.getElem?_eq_some_iff.1 found).1
    simp only [size, finish, List.length_eraseIdx_of_lt inside, List.length_append,
      List.length_singleton]
    omega
  | collect found =>
    have inside := (List.getElem?_eq_some_iff.1 found).1
    simp only [size, collect, List.length_eraseIdx_of_lt inside]
    omega

/-- The flight that ends first and its place; of several the one that started first. -/
def earliest? : List Flight → Option (Nat × Flight)
  | [] => none
  | f :: fs =>
    match earliest? fs with
    | some (i, g) => if g.endsAt < f.endsAt then some (i + 1, g) else some (0, f)
    | none => some (0, f)

def nextMove? (p : Pool τ) : Option PoolMove :=
  match p.ended with
  | _ :: _ => some (.collect 0)
  | [] =>
    match earliest? p.flights with
    | some (i, f) =>
      if f.endsAt ≤ p.now ∨ p.waiting = [] ∨ p.permits ≤ p.flights.length then some (.finish i)
      else some (.start 0)
    | none => if p.waiting = [] then none else some (.start 0)

theorem earliest?_eq_none_iff (fs : List Flight) : earliest? fs = none ↔ fs = [] := by
  cases fs with
  | nil => simp [earliest?]
  | cons f fs =>
    simp only [earliest?]
    split
    · split <;> simp
    · simp

theorem earliest?_lt {fs : List Flight} {i : Nat} {f : Flight} (h : earliest? fs = some (i, f)) :
    i < fs.length := by
  induction fs generalizing i f with
  | nil => cases h
  | cons g fs ih =>
    simp only [earliest?] at h
    split at h
    · next j f' later =>
      split at h
      · cases h
        exact Nat.succ_lt_succ (ih later)
      · cases h
        exact Nat.zero_lt_succ _
    · cases h
      exact Nat.zero_lt_succ _

theorem nextMove?_eq_none_iff (p : Pool τ) : p.nextMove? = none ↔ p.IsOver := by
  unfold nextMove? IsOver
  cases p.ended with
  | cons r rs => simp
  | nil =>
    cases h : earliest? p.flights with
    | none => simp [(earliest?_eq_none_iff p.flights).1 h]
    | some x =>
      have : p.flights ≠ [] := fun e => by simp [e, earliest?] at h
      simp only [this, false_and, and_false, iff_false]
      split <;> simp

theorem allows_nextMove? {p : Pool τ} {m : PoolMove} (h : p.nextMove? = some m) : p.Allows m := by
  unfold nextMove? at h
  split at h
  · next r rs he =>
    cases h
    simp [Allows, he]
  · split at h
    · next i f hf =>
      split at h
      · cases h
        exact earliest?_lt hf
      · next go =>
        cases h
        simp only [not_or, Nat.not_le] at go
        exact ⟨go.2.2, List.length_pos_iff.2 go.2.1⟩
    · next none =>
      split at h
      · cases h
      · next some =>
        cases h
        rw [Allows, (earliest?_eq_none_iff p.flights).1 none]
        exact ⟨p.permits_pos, List.length_pos_iff.2 some⟩

end Pool

/-- Picks the next move of a batch, and goes on until the batch is over. -/
structure Dispatch (τ : Type) where
  next? : Pool τ → Option PoolMove
  allowed : ∀ p m, next? p = some m → p.Allows m
  untilOver : ∀ p, next? p = none → p.IsOver

/-- Starts units as permits come free, and ends first what ends first. -/
def Dispatch.inOrder {τ : Type} : Dispatch τ where
  next? := Pool.nextMove?
  allowed _ _ := Pool.allows_nextMove?
  untilOver p := p.nextMove?_eq_none_iff.1

namespace Pool

variable {τ : Type}

def run (s : Syncer τ) (d : Dispatch τ) (p : Pool τ) : Pool τ :=
  match d.next? p with
  | none => p
  | some m =>
    match _next : p.move? s m with
    | none => p
    | some q => q.run s d
termination_by p.size
decreasing_by have := size_move? _next; omega

theorem run_of_none {s : Syncer τ} {d : Dispatch τ} {p : Pool τ} (h : d.next? p = none) :
    p.run s d = p := by
  rw [run, h]

theorem run_of_move? {s : Syncer τ} {d : Dispatch τ} {p q : Pool τ} {m : PoolMove}
    (h : d.next? p = some m) (moved : p.move? s m = some q) : p.run s d = q.run s d := by
  rw [run]
  simp only [h]
  split
  · next stuck => rw [moved] at stuck; cases stuck
  · next next => rw [moved] at next; cases next; rfl

end Pool

/-- Syncs the units of a job with up to `permits` of them in flight. -/
def Syncer.runTogether {τ : Type} (s : Syncer τ) (d : Dispatch τ) (permits : Nat)
    (pos : 0 < permits) (units : List SyncUnit) (now : Nat) (work : τ) : Results × Nat × τ :=
  let p := (Pool.fresh permits pos units now work).run s d
  (p.results, p.now, p.work)

end LeagueSync
