import Mathlib.Data.List.Nodup
import Mathlib.Data.List.Perm.Subperm
import LeagueSync.Batch.Queue
import LeagueSync.Proofs.PoolSchedule

/-!
# LeagueSync.Proofs.Desk

A channel of jobs with all who come to it: producers that wait until their job has gone in, and
tasks that were spawned for jobs that found the channel full. Every job that is brought gets a
ticket, so that two equal jobs are told apart, and every answer to whoever brought it is kept.
A ticket knows the ticket from outside that it goes back to: its root.

* `Desk.Change`: what an operation may do to the tickets. `Desk.change_submit` and its companions
  say that no operation does more.
* `Desk.Keeps`: nobody loses a ticket or holds it twice, and who got a positive answer has its
  ticket on the way or in the hands of the worker. A change keeps it (`Desk.Keeps.change`), and so
  does the worker when it takes a ticket (`Desk.Keeps.take`).
-/

namespace LeagueSync

/-- A job that was brought to a channel. -/
structure Ticket where
  number : Nat
  /-- The number of the ticket from outside that this one goes back to. -/
  root : Nat
  job : Job
  /-- Whether whoever brought it waits until it has gone in. -/
  awaited : Bool
  deriving DecidableEq

structure Desk where
  channel : Channel Ticket
  /-- The tickets of spawned tasks that have not come to the channel yet. -/
  spawned : List Ticket := []
  /-- All tickets so far. -/
  issued : List Ticket := []
  /-- The root of the job that is being run: its follow-up goes back to the same. -/
  running : Option Nat := none
  answers : List (Ticket × Except SyncError Unit) := []
  not_awaited : ∀ t ∈ spawned, t.awaited = false := by simp

/-- Leaves the line without having gone in. -/
def Channel.leave {α : Type} (c : Channel α) (place : Nat) : Channel α :=
  { c with line := c.line.eraseIdx place }

def acceptedIn (answers : List (Ticket × Except SyncError Unit)) : List Ticket :=
  (answers.filter (·.2.isOk)).map Prod.fst

theorem acceptedIn_append (xs ys : List (Ticket × Except SyncError Unit)) :
    acceptedIn (xs ++ ys) = acceptedIn xs ++ acceptedIn ys := by
  simp only [acceptedIn, List.filter_append, List.map_append]

theorem acceptedIn_ok (t : Ticket) : acceptedIn [(t, .ok ())] = [t] := rfl

theorem Ticket.filter_of_awaited {t : Ticket} (h : t.awaited = true) :
    [t].filter (·.awaited) = [t] ∧ [t].filter (!·.awaited) = [] := by
  simp [h]

theorem Ticket.filter_of_not_awaited {t : Ticket} (h : t.awaited = false) :
    [t].filter (·.awaited) = [] ∧ [t].filter (!·.awaited) = [t] := by
  simp [h]

theorem count_of_getElem? {ts : List Ticket} {i : Nat} {t : Ticket} (h : ts[i]? = some t)
    (x : Ticket) : ts.count x = [t].count x + (ts.eraseIdx i).count x := by
  rw [← List.count_append]
  exact (Pool.perm_cons_eraseIdx h).count_eq x

theorem count_filter_of_getElem? {ts : List Ticket} {i : Nat} {t : Ticket} (p : Ticket → Bool)
    (h : ts[i]? = some t) (x : Ticket) :
    (ts.filter p).count x = ([t].filter p).count x + ((ts.eraseIdx i).filter p).count x := by
  rw [← List.count_append, ← List.filter_append]
  exact ((Pool.perm_cons_eraseIdx h).filter p).count_eq x

namespace Desk

def ofCapacity (capacity : Nat) : Desk where
  channel := .ofCapacity capacity

/-- The next ticket; one from outside goes back to itself. -/
def ticket (d : Desk) (root : Option Nat) (job : Job) (awaited : Bool) : Ticket :=
  ⟨d.issued.length, root.getD d.issued.length, job, awaited⟩

def spawn (t : Ticket) (not_awaited : t.awaited = false) (d : Desk) : Desk :=
  { d with
    spawned := d.spawned ++ [t]
    not_awaited := by
      intro u mem
      rcases List.mem_append.1 mem with old | new
      · exact d.not_awaited u old
      · rw [List.mem_singleton.1 new]
        exact not_awaited }

/-- Brings a job without waiting: a full channel has a task spawned for it. -/
def submit (root : Option Nat) (job : Job) (d : Desk) : Except SyncError Unit × Desk :=
  let t := d.ticket root job false
  let d := { d with issued := d.issued ++ [t] }
  match d.channel.put? t with
  | .ok channel => (.ok (), { d with channel, answers := d.answers ++ [(t, .ok ())] })
  | .error .full => (.ok (), { d.spawn t rfl with answers := d.answers ++ [(t, .ok ())] })
  | .error .closed =>
    (.error .queueClosed, { d with answers := d.answers ++ [(t, .error .queueClosed)] })

/-- The worker's own follow-ups. -/
instance : Sink Desk where
  submit job d := d.submit d.running job

/-- Brings a job and waits in line while the channel is full. -/
def send (job : Job) (d : Desk) : Desk :=
  let t := d.ticket none job true
  let d := { d with issued := d.issued ++ [t] }
  match d.channel.put? t with
  | .ok channel => { d with channel, answers := d.answers ++ [(t, .ok ())] }
  | .error .full => { d with channel := d.channel.wait t }
  | .error .closed => { d with answers := d.answers ++ [(t, .error .queueClosed)] }

def unspawn (place : Nat) (d : Desk) : Desk :=
  { d with
    spawned := d.spawned.eraseIdx place
    not_awaited := fun t mem => d.not_awaited t (List.mem_of_mem_eraseIdx mem) }

/-- A spawned task comes to the channel; a closed one makes it give up. -/
def ask? (place : Nat) (d : Desk) : Option Desk :=
  (d.spawned[place]?).map fun t =>
    match d.channel.put? t with
    | .ok channel => { d.unspawn place with channel }
    | .error .full => { d.unspawn place with channel := d.channel.wait t }
    | .error .closed => d.unspawn place

/-- Someone in line goes in, while the receiver is there. -/
def enter? (place : Nat) (d : Desk) : Option Desk :=
  if d.channel.isOpen then
    (d.channel.enter? place).map fun (t, channel) =>
      if t.awaited then { d with channel, answers := d.answers ++ [(t, .ok ())] }
      else { d with channel }
  else none

/-- A producer in line does not want to wait any longer. A spawned task always does. -/
def giveUp? (place : Nat) (d : Desk) : Option Desk :=
  (d.channel.line[place]?).bind fun t =>
    if t.awaited then some { d with channel := d.channel.leave place } else none

/-- The worker takes out what is oldest, to run it. -/
def take? (d : Desk) : Option (Ticket × Desk) :=
  d.channel.take?.map fun (t, channel) => (t, { d with channel, running := some t.root })

def unanswered (d : Desk) : List Ticket :=
  d.channel.line.filter (·.awaited)

/-- The jobs of spawned tasks, wherever these are. -/
def deferred (d : Desk) : List Ticket :=
  d.spawned ++ d.channel.line.filter (!·.awaited)

/-- The receiver is gone: whoever waits in line is told so. -/
def close (d : Desk) : Desk :=
  { d with
    channel := d.channel.close
    answers := d.answers ++ d.unanswered.map (·, .error .queueClosed) }

def accepted (d : Desk) : List Ticket :=
  acceptedIn d.answers

/-- The tickets that the worker is to get: those in the channel and those of spawned tasks. -/
def held (d : Desk) : List Ticket :=
  d.channel.buffer ++ d.deferred

def pending (d : Desk) : List Ticket :=
  d.channel.buffer ++ d.spawned ++ d.channel.line

/-- What any operation except the worker's may do to the tickets. These are new; some that were on
their way may be lost, but none that was answered positively as long as the channel is open; and a
closed channel has only one answer. -/
structure Change (new : List Ticket) (d e : Desk) : Prop where
  capacity : e.channel.capacity = d.channel.capacity
  running : e.running = d.running
  issued : e.issued = d.issued ++ new
  answers : ∃ more, e.answers = d.answers ++ more ∧
    (e.channel.isOpen = false → ∀ a ∈ more, a.2 = .error .queueClosed)
  pending : ∀ x, e.pending.count x ≤ new.count x + d.pending.count x
  answered : ∀ x, (e.answers.map Prod.fst).count x + e.unanswered.count x ≤
    new.count x + ((d.answers.map Prod.fst).count x + d.unanswered.count x)
  kept : e.channel.isOpen = true → d.channel.isOpen = true ∧
    ∀ x, e.accepted.count x + d.held.count x = d.accepted.count x + e.held.count x

/-- What an operation may do at an open channel that stays open. -/
theorem change_of_open {d e : Desk} {new : List Ticket}
    {more : List (Ticket × Except SyncError Unit)} (isOpen : d.channel.isOpen = true)
    (stays : e.channel.isOpen = true) (capacity : e.channel.capacity = d.channel.capacity)
    (running : e.running = d.running) (issued : e.issued = d.issued ++ new)
    (answers : e.answers = d.answers ++ more)
    (pending : ∀ x, e.pending.count x ≤ new.count x + d.pending.count x)
    (answered : ∀ x, (e.answers.map Prod.fst).count x + e.unanswered.count x ≤
      new.count x + ((d.answers.map Prod.fst).count x + d.unanswered.count x))
    (kept : ∀ x, e.accepted.count x + d.held.count x = d.accepted.count x + e.held.count x) :
    Change new d e :=
  ⟨capacity, running, issued,
    ⟨more, answers, fun isClosed => by cases stays.symm.trans isClosed⟩, pending, answered,
    fun _ => ⟨isOpen, kept⟩⟩

theorem no_answer (d : Desk) (isClosed : Prop) :
    ∃ more, d.answers = d.answers ++ more ∧
      (isClosed → ∀ a ∈ more, a.2 = .error .queueClosed) :=
  ⟨[], (List.append_nil _).symm, fun _ _ none => nomatch none⟩

section Changes

variable (d : Desk)

theorem change_refl : Change [] d d := by
  refine ⟨rfl, rfl, (List.append_nil _).symm, d.no_answer _, fun x => ?_, fun x => ?_,
    fun isOpen => ⟨isOpen, fun _ => rfl⟩⟩
  · exact Nat.le_add_left ..
  · exact Nat.le_add_left ..

theorem change_submit (root : Option Nat) (job : Job) :
    Change [d.ticket root job false] d (d.submit root job).2 := by
  rw [submit]
  rcases d.channel.put?_cases (d.ticket root job false) with
    ⟨isOpen, c, put, capacity, buffer, line, stays⟩ | ⟨isOpen, put⟩ | ⟨isClosed, put⟩
  · simp only [put]
    refine change_of_open isOpen stays capacity rfl rfl rfl (fun x => ?_) (fun x => ?_) fun x => ?_
    all_goals
      simp only [pending, unanswered, accepted, acceptedIn_append, acceptedIn_ok, held, deferred,
        buffer, line, List.count_append, List.map_append, List.map_cons, List.map_nil]
      omega
  · simp only [put]
    refine change_of_open isOpen isOpen rfl rfl rfl rfl (fun x => ?_) (fun x => ?_) fun x => ?_
    all_goals
      simp only [pending, unanswered, accepted, acceptedIn_append, acceptedIn_ok, held, deferred,
        spawn, List.count_append, List.map_append, List.map_cons, List.map_nil]
      omega
  · simp only [put]
    refine ⟨rfl, rfl, rfl, ⟨_, rfl, ?_⟩, fun x => ?_, fun x => ?_, fun isOpen => ?_⟩
    · intro _ a mem
      rw [List.mem_singleton.1 mem]
    · simp only [pending]
      omega
    · simp only [unanswered, List.count_append, List.map_append, List.map_cons, List.map_nil]
      omega
    · cases isClosed.symm.trans isOpen

theorem change_send (job : Job) : Change [d.ticket none job true] d (d.send job) := by
  obtain ⟨awaited, not_deferred⟩ :=
    Ticket.filter_of_awaited (t := d.ticket none job true) rfl
  rw [send]
  rcases d.channel.put?_cases (d.ticket none job true) with
    ⟨isOpen, c, put, capacity, buffer, line, stays⟩ | ⟨isOpen, put⟩ | ⟨isClosed, put⟩
  · simp only [put]
    refine change_of_open isOpen stays capacity rfl rfl rfl (fun x => ?_) (fun x => ?_) fun x => ?_
    all_goals
      simp only [pending, unanswered, accepted, acceptedIn_append, acceptedIn_ok, held, deferred,
        buffer, line, List.count_append, List.map_append, List.map_cons, List.map_nil]
      omega
  · simp only [put]
    refine change_of_open isOpen isOpen rfl rfl rfl (List.append_nil _).symm (fun x => ?_)
      (fun x => ?_) fun x => ?_
    all_goals
      simp only [pending, unanswered, accepted, held, deferred, Channel.wait, List.filter_append,
        awaited, not_deferred, List.count_append, List.count_nil]
      omega
  · simp only [put]
    refine ⟨rfl, rfl, rfl, ⟨_, rfl, ?_⟩, fun x => ?_, fun x => ?_, fun isOpen => ?_⟩
    · intro _ a mem
      rw [List.mem_singleton.1 mem]
    · simp only [pending]
      omega
    · simp only [unanswered, List.count_append, List.map_append, List.map_cons, List.map_nil]
      omega
    · cases isClosed.symm.trans isOpen

variable {d} {e : Desk} {place : Nat}

theorem change_ask? (h : d.ask? place = some e) : Change [] d e := by
  obtain ⟨t, found, rfl⟩ := Option.map_eq_some_iff.1 h
  obtain ⟨not_awaited, deferred'⟩ :=
    Ticket.filter_of_not_awaited (d.not_awaited t (List.mem_of_getElem? found))
  have moved := count_of_getElem? found
  rcases d.channel.put?_cases t with
    ⟨isOpen, c, put, capacity, buffer, line, stays⟩ | ⟨isOpen, put⟩ | ⟨isClosed, put⟩
  · simp only [put]
    refine change_of_open isOpen stays capacity rfl (List.append_nil _).symm
      (List.append_nil _).symm (fun x => ?_) (fun x => ?_) fun x => ?_
    all_goals
      have := moved x
      simp only [pending, unanswered, accepted, held, deferred, unspawn, buffer, line,
        List.count_append, List.count_nil]
      omega
  · simp only [put]
    refine change_of_open isOpen isOpen rfl rfl (List.append_nil _).symm (List.append_nil _).symm
      (fun x => ?_) (fun x => ?_) fun x => ?_
    all_goals
      have := moved x
      simp only [pending, unanswered, accepted, held, deferred, Channel.wait, unspawn,
        List.filter_append, not_awaited, deferred', List.count_append, List.count_nil]
      omega
  · simp only [put]
    refine ⟨rfl, rfl, (List.append_nil _).symm, d.no_answer _, fun x => ?_, fun x => ?_,
      fun isOpen => ?_⟩
    · have := moved x
      simp only [pending, unspawn, List.count_append, List.count_nil]
      omega
    · simp only [unanswered, unspawn, List.count_nil]
      omega
    · cases isClosed.symm.trans isOpen

theorem change_enter? (h : d.enter? place = some e) : Change [] d e := by
  unfold enter? at h
  split at h
  · next isOpen =>
    obtain ⟨⟨t, c⟩, entered, same⟩ := Option.map_eq_some_iff.1 h
    obtain ⟨found, capacity, buffer, line, stays⟩ := Channel.enter?_eq_some entered
    have moved := count_of_getElem? found
    have moved₁ := count_filter_of_getElem? (·.awaited) found
    have moved₂ := count_filter_of_getElem? (!·.awaited) found
    cases awaited : t.awaited with
    | true =>
      rw [(Ticket.filter_of_awaited awaited).1] at moved₁
      rw [(Ticket.filter_of_awaited awaited).2] at moved₂
      simp only [awaited, if_true] at same
      subst same
      refine change_of_open isOpen (stays.trans isOpen) capacity rfl (List.append_nil _).symm rfl
        (fun x => ?_) (fun x => ?_) fun x => ?_
      all_goals
        specialize moved x
        specialize moved₁ x
        specialize moved₂ x
        simp only [pending, unanswered, accepted, acceptedIn_append, acceptedIn_ok, held, deferred,
          buffer, line, List.count_append, List.count_nil, List.map_append, List.map_cons,
          List.map_nil] at *
        omega
    | false =>
      rw [(Ticket.filter_of_not_awaited awaited).1] at moved₁
      rw [(Ticket.filter_of_not_awaited awaited).2] at moved₂
      simp only [awaited, Bool.false_eq_true, if_false] at same
      subst same
      refine change_of_open isOpen (stays.trans isOpen) capacity rfl (List.append_nil _).symm
        (List.append_nil _).symm (fun x => ?_) (fun x => ?_) fun x => ?_
      all_goals
        specialize moved x
        specialize moved₁ x
        specialize moved₂ x
        simp only [pending, unanswered, accepted, held, deferred, buffer, line, List.count_append,
          List.count_nil] at *
        omega
  · cases h

theorem change_giveUp? (h : d.giveUp? place = some e) : Change [] d e := by
  obtain ⟨t, found, same⟩ := Option.bind_eq_some_iff.1 h
  split at same
  · next awaited =>
    cases same
    have moved := count_of_getElem? found
    have moved₁ := count_filter_of_getElem? (·.awaited) found
    have moved₂ := count_filter_of_getElem? (!·.awaited) found
    rw [(Ticket.filter_of_awaited awaited).2] at moved₂
    refine ⟨rfl, rfl, (List.append_nil _).symm, d.no_answer _, fun x => ?_, fun x => ?_,
      fun isOpen => ⟨isOpen, fun x => ?_⟩⟩
    all_goals
      specialize moved x
      specialize moved₁ x
      specialize moved₂ x
      simp only [pending, unanswered, accepted, held, deferred, Channel.leave, List.count_append,
        List.count_nil] at *
      omega
  · cases same

theorem change_close (d : Desk) : Change [] d d.close := by
  refine ⟨rfl, rfl, (List.append_nil _).symm, ⟨_, rfl, ?_⟩, fun x => ?_, fun x => ?_,
    fun isOpen => ?_⟩
  · intro _ a mem
    obtain ⟨t, -, rfl⟩ := List.mem_map.1 mem
    rfl
  · simp only [pending, close, Channel.close, List.count_append, List.count_nil]
    omega
  · have told : (d.unanswered.map (·, (.error .queueClosed : Except SyncError Unit))).map Prod.fst =
        d.unanswered := by
      rw [List.map_map]
      exact List.map_id _
    have none : d.close.unanswered = [] := rfl
    rw [none]
    simp only [close, List.map_append, told, List.count_append, List.count_nil]
    omega
  · cases isOpen

end Changes

/-- What is kept of the tickets, if the worker has taken these. -/
structure Keeps (d : Desk) (taken : List Ticket) : Prop where
  numbered : d.issued.map Ticket.number = List.range d.issued.length
  located : ∀ x, d.pending.count x + taken.count x ≤ d.issued.count x
  answered : ∀ x, (d.answers.map Prod.fst).count x + d.unanswered.count x ≤ d.issued.count x
  kept : d.channel.isOpen = true → ∀ x, d.accepted.count x = d.held.count x + taken.count x

theorem keeps_ofCapacity (capacity : Nat) : (ofCapacity capacity).Keeps [] :=
  ⟨rfl, fun _ => Nat.le_refl _, fun _ => Nat.le_refl _, fun _ _ => rfl⟩

namespace Keeps

variable {d e : Desk} {taken : List Ticket} {t : Ticket}

theorem nodup_issued (h : d.Keeps taken) : d.issued.Nodup := by
  have numbers : (d.issued.map Ticket.number).Nodup := by
    rw [h.numbered]
    exact List.nodup_range
  exact numbers.of_map

theorem change {new : List Ticket} (h : d.Keeps taken)
    (numbered : new.map Ticket.number = List.range' d.issued.length new.length)
    (c : Change new d e) : e.Keeps taken := by
  refine ⟨?_, fun x => ?_, fun x => ?_, fun isOpen x => ?_⟩
  · rw [c.issued, List.map_append, h.numbered, numbered, List.length_append, List.range_eq_range',
      List.range_eq_range', ← List.range'_append_1, Nat.zero_add]
  · have := c.pending x
    have := h.located x
    rw [c.issued, List.count_append]
    omega
  · have := c.answered x
    have := h.answered x
    rw [c.issued, List.count_append]
    omega
  · obtain ⟨wasOpen, moved⟩ := c.kept isOpen
    have := moved x
    have := h.kept wasOpen x
    omega

theorem take (h : d.Keeps taken) (took : d.take? = some (t, e)) : e.Keeps (taken ++ [t]) := by
  obtain ⟨⟨u, c⟩, received, same⟩ := Option.map_eq_some_iff.1 took
  cases same
  obtain ⟨buffer, -, line, isOpen⟩ := Channel.take?_eq_some received
  refine ⟨h.numbered, fun x => ?_, fun x => ?_, fun wasOpen x => ?_⟩
  · have := h.located x
    simp only [pending, buffer, line, List.count_append, List.count_cons, List.count_nil] at this ⊢
    omega
  · simpa only [unanswered, line] using h.answered x
  · have := h.kept (isOpen.symm.trans wasOpen) x
    simp only [accepted, held, deferred, buffer, line, List.count_append, List.count_cons,
      List.count_nil] at this ⊢
    omega

end Keeps

end Desk
end LeagueSync
