import LeagueSync.Batch.Job
import LeagueSync.Failure

/-!
# LeagueSync.Batch.Queue

Queues of jobs. A `Sink` takes follow-up jobs; an `InlineQueue` keeps them for this process. A
`Channel` has limited room between senders and one receiver. Who finds it full may stand in line.
Room that comes free is promised to the line in the order of arrival, and who has been promised room
goes in when he gets to it: `put?`, `wait`, `enter?` and `take?` are what single parties do. Where
nobody dawdles the line is served at once (`serveLine`), and `offer`, `join`, `submit` and
`receive?` do the same with the line served before and after.

* `Channel.serveLine_of_enter?`: to serve the line is to let in the first in line again and again.
* `Channel.served_of_enter?_eq_none`: when the first in line can not go in, the line is served.
* `Channel.contents_submit`, `Channel.contents_receive`: jobs leave a channel in the order in which
  they came, whether they stood in line or not.
-/

namespace LeagueSync

/-- What takes follow-up jobs. -/
class Sink (κ : Type) where
  /-- Takes a job without waiting, or refuses it. -/
  submit : Job → κ → Except SyncError Unit × κ

/-- Jobs that wait to be run in this process, first come first. A closed queue refuses jobs. -/
structure InlineQueue where
  jobs : List Job := []
  isClosed : Bool := false

instance : Sink InlineQueue where
  submit job q :=
    if q.isClosed then (.error .queueClosed, q)
    else (.ok (), { q with jobs := q.jobs ++ [job] })

/-- Room between senders and a receiver. -/
structure Channel (α : Type) where
  capacity : Nat
  /-- What is in the channel, oldest first. -/
  buffer : List α := []
  /-- What the senders in line have brought, first come first. -/
  line : List α := []
  /-- How many have left the line for the channel. -/
  served : Nat := 0
  /-- Whether the receiver is still there. -/
  isOpen : Bool := true
  capacity_pos : 0 < capacity
  buffer_le : buffer.length ≤ capacity := by simp

inductive ChannelRefusal where
  | full
  | closed
  deriving DecidableEq, Repr

namespace Channel

variable {α : Type}

/-- A channel with room for this many, but at least for one. -/
def ofCapacity (capacity : Nat) : Channel α where
  capacity := max 1 capacity
  capacity_pos := by omega

def contents (c : Channel α) : List α :=
  c.buffer ++ c.line

/-- Puts something into the channel if there is room that nobody in line has been promised. -/
def put? (c : Channel α) (a : α) : Except ChannelRefusal (Channel α) :=
  if c.isOpen then
    if room : c.buffer.length + c.line.length < c.capacity then
      .ok { c with
        buffer := c.buffer ++ [a]
        buffer_le := by rw [List.length_append, List.length_singleton]; omega }
    else .error .full
  else .error .closed

def wait (c : Channel α) (a : α) : Channel α :=
  { c with line := c.line ++ [a] }

/-- Goes in from this place of the line, if there is room for all up to this place. -/
def enter? (c : Channel α) (place : Nat) : Option (α × Channel α) :=
  if room : c.buffer.length + place < c.capacity then
    (c.line[place]?).map fun a => (a, { c with
      buffer := c.buffer ++ [a]
      line := c.line.eraseIdx place
      served := c.served + 1
      buffer_le := by rw [List.length_append, List.length_singleton]; omega })
  else none

def take? (c : Channel α) : Option (α × Channel α) :=
  match held : c.buffer with
  | [] => none
  | a :: buffer => some (a, { c with
      buffer
      buffer_le := by
        have := c.buffer_le
        rw [held, List.length_cons] at this
        omega })

/-- Lets in everyone in line for whom there is room. -/
def serveLine (c : Channel α) : Channel α :=
  let room := c.capacity - c.buffer.length
  { c with
    buffer := c.buffer ++ c.line.take room
    line := c.line.drop room
    served := c.served + min room c.line.length
    buffer_le := by
      have := c.buffer_le
      rw [List.length_append, List.length_take]
      omega }

def offer (c : Channel α) (a : α) : Except ChannelRefusal Unit × Channel α :=
  match c.serveLine.put? a with
  | .ok c => (.ok (), c)
  | .error refusal => (.error refusal, c.serveLine)

/-- Stands in line, or goes in if there is room. The number is that of the place: whoever has it is
in the channel once more than so many have left the line. -/
def join (c : Channel α) (a : α) : Nat × Channel α :=
  (c.served + c.line.length, (c.wait a).serveLine)

def hasServed (c : Channel α) (place : Nat) : Bool :=
  place < c.served

/-- Takes a follow-up job: a full channel has it stand in line. -/
def submit (c : Channel α) (a : α) : Except SyncError Unit × Channel α :=
  match c.offer a with
  | (.ok (), c) => (.ok (), c)
  | (.error .full, c) => (.ok (), (c.join a).2)
  | (.error .closed, c) => (.error .queueClosed, c)

instance : Sink (Channel Job) where
  submit job c := c.submit job

/-- Takes out what is oldest; the line moves up. -/
def receive? (c : Channel α) : Option (α × Channel α) :=
  c.serveLine.take?.map fun (a, c) => (a, c.serveLine)

/-- Takes out what is in the channel, before any of those in line can move up. -/
def receiveAll (c : Channel α) : List α × Channel α :=
  (List.range c.buffer.length).foldl (fun (taken, c) _ =>
    match c.receive? with
    | some (a, c) => (taken ++ [a], c)
    | none => (taken, c)) ([], c)

/-- Closes the channel: the receiver is gone, and all that was on its way with it. -/
def close (c : Channel α) : Channel α where
  capacity := c.capacity
  served := c.served
  isOpen := false
  capacity_pos := c.capacity_pos

theorem put?_cases (c : Channel α) (a : α) :
    (c.isOpen = true ∧ ∃ d, c.put? a = .ok d ∧ d.capacity = c.capacity ∧
        d.buffer = c.buffer ++ [a] ∧ d.line = c.line ∧ d.isOpen = true) ∨
      (c.isOpen = true ∧ c.put? a = .error .full) ∨
      (c.isOpen = false ∧ c.put? a = .error .closed) := by
  unfold put?
  cases isOpen : c.isOpen with
  | false => exact .inr (.inr ⟨rfl, rfl⟩)
  | true =>
    by_cases room : c.buffer.length + c.line.length < c.capacity
    · exact .inl ⟨rfl, _, dif_pos room, rfl, rfl, rfl, rfl⟩
    · exact .inr (.inl ⟨rfl, dif_neg room⟩)

theorem put?_of_room {c : Channel α} {a : α} (isOpen : c.isOpen = true)
    (room : c.buffer.length + c.line.length < c.capacity) :
    ∃ d, c.put? a = .ok d ∧ d.capacity = c.capacity ∧ d.buffer = c.buffer ++ [a] ∧
      d.line = c.line ∧ d.isOpen = true := by
  rw [put?, if_pos isOpen, dif_pos room]
  exact ⟨_, rfl, rfl, rfl, rfl, isOpen⟩

theorem put?_of_full {c : Channel α} {a : α} (isOpen : c.isOpen = true)
    (full : c.capacity ≤ c.buffer.length + c.line.length) : c.put? a = .error .full := by
  rw [put?, if_pos isOpen, dif_neg (Nat.not_lt.2 full)]

theorem enter?_eq_some {c d : Channel α} {place : Nat} {a : α} (h : c.enter? place = some (a, d)) :
    c.line[place]? = some a ∧ d.capacity = c.capacity ∧ d.buffer = c.buffer ++ [a] ∧
      d.line = c.line.eraseIdx place ∧ d.isOpen = c.isOpen := by
  unfold enter? at h
  split at h
  · obtain ⟨b, found, same⟩ := Option.map_eq_some_iff.1 h
    cases same
    exact ⟨found, rfl, rfl, rfl, rfl⟩
  · cases h

theorem take?_eq_some {c d : Channel α} {a : α} (h : c.take? = some (a, d)) :
    c.buffer = a :: d.buffer ∧ d.capacity = c.capacity ∧ d.line = c.line ∧ d.isOpen = c.isOpen := by
  unfold take? at h
  split at h
  · cases h
  · next held =>
    cases h
    exact ⟨held, rfl, rfl, rfl⟩

theorem take?_eq_none {c : Channel α} (h : c.take? = none) : c.buffer = [] := by
  unfold take? at h
  split at h
  · assumption
  · cases h

theorem contents_serveLine (c : Channel α) : c.serveLine.contents = c.contents := by
  simp only [serveLine, contents, List.append_assoc, List.take_append_drop]

theorem full_of_line_serveLine {c : Channel α} (h : c.serveLine.line ≠ []) :
    c.serveLine.buffer.length = c.capacity := by
  have := c.buffer_le
  have waits : c.capacity - c.buffer.length < c.line.length := by
    simpa only [serveLine, ne_eq, List.drop_eq_nil_iff, Nat.not_le] using h
  simp only [serveLine, List.length_append, List.length_take]
  omega

theorem serveLine_of_enter? {c d : Channel α} {a : α} (h : c.enter? 0 = some (a, d)) :
    d.serveLine = c.serveLine := by
  unfold enter? at h
  split at h
  · next room =>
    obtain ⟨b, first, same⟩ := Option.map_eq_some_iff.1 h
    cases same
    have left : c.capacity - c.buffer.length = c.capacity - (c.buffer.length + 1) + 1 := by omega
    cases waits : c.line with
    | nil =>
      rw [waits] at first
      cases first
    | cons b line =>
      rw [waits] at first
      cases first
      simp only [serveLine, waits, left, List.length_append, List.length_cons, List.length_nil,
        List.eraseIdx_cons_zero, List.take_succ_cons, List.drop_succ_cons, List.append_assoc,
        List.singleton_append, mk.injEq, true_and, and_true]
      omega
  · cases h

theorem isSome_enter?_iff {c : Channel α} {place : Nat} :
    (c.enter? place).isSome ↔ c.buffer.length + place < c.capacity ∧ place < c.line.length := by
  unfold enter?
  split
  · next room => simp [room]
  · next full => simp [full]

/-- Nobody stands in line for room that is there. -/
def Served (c : Channel α) : Prop :=
  c.line = [] ∨ c.buffer.length = c.capacity

theorem served_serveLine (c : Channel α) : c.serveLine.Served := by
  by_cases nobody : c.serveLine.line = []
  · exact .inl nobody
  · exact .inr (full_of_line_serveLine nobody)

theorem Served.serveLine {c : Channel α} (h : c.Served) : c.serveLine = c := by
  cases c
  rcases h with nobody | full
  · simp_all [Channel.serveLine]
  · simp_all [Channel.serveLine]

theorem served_of_enter?_eq_none {c : Channel α} (h : c.enter? 0 = none) : c.Served := by
  by_cases nobody : c.line = []
  · exact .inl nobody
  · right
    have some := List.length_pos_iff.2 nobody
    have stuck : ¬ (c.buffer.length + 0 < c.capacity ∧ 0 < c.line.length) := fun free => by
      rw [← isSome_enter?_iff, h] at free
      cases free
    have := c.buffer_le
    omega

theorem contents_join (c : Channel α) (a : α) :
    (c.join a).2.contents = c.contents ++ [a] := by
  rw [join, contents_serveLine, wait, contents, contents, List.append_assoc]

theorem join_of_room {c : Channel α} {a : α} (nobody : c.line = [])
    (room : c.buffer.length < c.capacity) :
    (c.join a).2.buffer = c.buffer ++ [a] ∧ (c.join a).2.line = [] := by
  obtain ⟨more, left⟩ : ∃ more, c.capacity - c.buffer.length = more + 1 :=
    ⟨c.capacity - c.buffer.length - 1, by omega⟩
  simp only [join, wait, Channel.serveLine, nobody, left, List.nil_append, List.take_succ_cons,
    List.take_nil, List.drop_succ_cons, List.drop_nil, and_self]

theorem join_of_full {c : Channel α} {a : α} (full : c.buffer.length = c.capacity) :
    (c.join a).2 = c.wait a :=
  Served.serveLine (.inr full)

theorem contents_put?_serveLine {c d : Channel α} {a : α} (h : c.serveLine.put? a = .ok d) :
    d.contents = c.contents ++ [a] := by
  unfold put? at h
  split at h
  · split at h
    · next room =>
      cases h
      have none : c.serveLine.line = [] := Classical.byContradiction fun some => by
        have full := full_of_line_serveLine some
        have same : c.serveLine.capacity = c.capacity := rfl
        omega
      rw [← c.contents_serveLine, contents, contents, none, List.append_nil, List.append_nil]
    · cases h
  · cases h

theorem submit_of_open {c : Channel α} (h : c.isOpen = true) (a : α) :
    (c.submit a).1 = .ok () ∧ (c.submit a).2.contents = c.contents ++ [a] := by
  have isOpen : c.serveLine.isOpen = true := h
  unfold submit offer
  rcases c.serveLine.put?_cases a with ⟨-, d, put, -⟩ | ⟨-, full⟩ | ⟨closed, -⟩
  · rw [put]
    exact ⟨rfl, contents_put?_serveLine put⟩
  · rw [full]
    exact ⟨rfl, by rw [contents_join, contents_serveLine]⟩
  · rw [isOpen] at closed
    cases closed

theorem submit_of_closed {c : Channel α} (h : c.isOpen = false) (a : α) :
    c.submit a = (.error .queueClosed, c.serveLine) := by
  have isClosed : c.serveLine.isOpen = false := h
  simp [submit, offer, put?, isClosed]

theorem contents_submit (c : Channel α) (a : α) :
    (c.submit a).2.contents = if c.isOpen then c.contents ++ [a] else c.contents := by
  cases h : c.isOpen with
  | true => simp [(submit_of_open h a).2]
  | false => simp [submit_of_closed h a, contents_serveLine]

theorem contents_receive {c d : Channel α} {a : α} (h : c.receive? = some (a, d)) :
    c.contents = a :: d.contents := by
  obtain ⟨⟨b, e⟩, taken, same⟩ := Option.map_eq_some_iff.1 h
  cases same
  obtain ⟨held, -, line, -⟩ := take?_eq_some taken
  rw [contents_serveLine, ← c.contents_serveLine, contents, contents, held, line, List.cons_append]

end Channel
end LeagueSync
