import LeagueSync.Batch.Worker
import LeagueSync.Proofs.QueueAnswers
import LeagueSync.Proofs.RetryBudget

/-!
# LeagueSync.Proofs.WorkerSchedule

A worker that runs by itself, with one sender, follows one of the schedules of a workshop: what
holds in all runs of a workshop holds for it. In between, its channel serves the line at once, and a
follow-up that finds the channel full stands in line at once.

* `Desk.Carries`: a desk has the jobs of a channel, in the same order. Sending, submitting and
  receiving keep it.
* `Worker.next?_replayed`, `Worker.run_replayed`: what the worker does, a workshop may do.
* `Worker.executed_run_le`: so it runs only so many jobs.
-/

namespace LeagueSync

namespace Desk

/-- The desk has the jobs of the channel, and its spawned tasks stand at the end of the line. -/
structure Carries (d : Desk) (c : Channel Job) : Prop where
  isOpen : d.channel.isOpen = true
  isOpen' : c.isOpen = true
  capacity : d.channel.capacity = c.capacity
  buffer : d.channel.buffer.map Ticket.job = c.buffer
  line : (d.channel.line ++ d.spawned).map Ticket.job = c.line

namespace Carries

variable {d : Desk} {c : Channel Job} {job : Job}

theorem length_buffer (h : d.Carries c) : d.channel.buffer.length = c.buffer.length := by
  rw [← h.buffer, List.length_map]

theorem length_line (h : d.Carries c) :
    d.channel.line.length + d.spawned.length = c.line.length := by
  rw [← h.line, List.length_map, List.length_append]

/-- A follow-up finds room at the desk when it finds room in the channel. -/
theorem submit (h : d.Carries c) (served : c.Served) (root : Option Nat) (job : Job) :
    (d.submit root job).1 = (c.submit job).1 ∧ (d.submit root job).2.Carries (c.submit job).2 ∧
      (c.submit job).2.Served := by
  have buffers := h.length_buffer
  have lines := h.length_line
  have capacity := h.capacity
  rw [Desk.submit, Channel.submit, Channel.offer, served.serveLine]
  by_cases room : c.buffer.length < c.capacity
  · have nobody : c.line = [] := served.resolve_right (Nat.ne_of_lt room)
    rw [nobody, List.length_nil] at lines
    obtain ⟨e, put, capacity', buffer', line', isOpen'⟩ :=
      Channel.put?_of_room (a := d.ticket root job false) h.isOpen (by omega)
    obtain ⟨f, put', capacity'', buffer'', line'', isOpen''⟩ :=
      Channel.put?_of_room (a := job) h.isOpen' (by rw [nobody, List.length_nil]; omega)
    simp only [put, put']
    refine ⟨trivial, ⟨isOpen', isOpen'', ?_, ?_, ?_⟩, .inl (line''.trans nobody)⟩
    · exact capacity'.trans (capacity.trans capacity''.symm)
    · rw [buffer', buffer'', List.map_append, h.buffer]
      rfl
    · rw [line', line'', h.line]
  · have full : c.buffer.length = c.capacity := Nat.le_antisymm c.buffer_le (Nat.not_lt.1 room)
    rw [Channel.put?_of_full h.isOpen (by omega), Channel.put?_of_full h.isOpen' (by omega)]
    simp only [Channel.join_of_full full]
    refine ⟨trivial, ⟨h.isOpen, h.isOpen', capacity, h.buffer, ?_⟩, .inr full⟩
    show (d.channel.line ++ (d.spawned ++ [d.ticket root job false])).map Ticket.job =
      c.line ++ [job]
    rw [← List.append_assoc, List.map_append, h.line]
    rfl

theorem send (h : d.Carries c) (served : c.Served) (none : d.spawned = []) (job : Job) :
    (d.send job).Carries (c.join job).2 ∧ (d.send job).spawned = [] := by
  have buffers := h.length_buffer
  have lines := h.length_line
  have capacity := h.capacity
  rw [Desk.send]
  by_cases room : c.buffer.length < c.capacity
  · have nobody : c.line = [] := served.resolve_right (Nat.ne_of_lt room)
    rw [nobody, List.length_nil] at lines
    obtain ⟨e, put, capacity', buffer', line', isOpen'⟩ :=
      Channel.put?_of_room (a := d.ticket .none job true) h.isOpen (by omega)
    obtain ⟨buffer'', line''⟩ := Channel.join_of_room (a := job) nobody room
    simp only [put]
    refine ⟨⟨isOpen', h.isOpen', capacity'.trans capacity, ?_, ?_⟩, none⟩
    · rw [buffer', buffer'', List.map_append, h.buffer]
      rfl
    · rw [line', line'', h.line, nobody]
  · have full : c.buffer.length = c.capacity := Nat.le_antisymm c.buffer_le (Nat.not_lt.1 room)
    rw [Channel.put?_of_full h.isOpen (by omega), Channel.join_of_full full]
    refine ⟨⟨h.isOpen, h.isOpen', capacity, h.buffer, ?_⟩, none⟩
    have line := h.line
    rw [none, List.append_nil] at line
    show ((d.channel.line ++ [d.ticket .none job true]) ++ d.spawned).map Ticket.job =
      c.line ++ [job]
    rw [none, List.append_nil, List.map_append, line]
    rfl

/-- A spawned task that comes to the desk is where it should be. -/
theorem ask? (h : d.Carries c) (served : c.Served) {t : Ticket} {ts : List Ticket}
    (some : d.spawned = t :: ts) : ∃ e, d.ask? 0 = .some e ∧ e.Carries c ∧ e.spawned = ts := by
  have buffers := h.length_buffer
  have lines := h.length_line
  have capacity := h.capacity
  have line := h.line
  rw [some] at lines line
  rw [List.length_cons] at lines
  have full : c.buffer.length = c.capacity := served.resolve_left fun nobody => by
    rw [nobody, List.length_nil] at lines
    omega
  have first : d.spawned[0]? = .some t := by rw [some]; rfl
  have asked : d.ask? 0 = .some { d.unspawn 0 with channel := d.channel.wait t } := by
    simp only [Desk.ask?, first, Option.map_some, Channel.put?_of_full h.isOpen
      (show d.channel.capacity ≤ d.channel.buffer.length + d.channel.line.length by omega)]
  have left : d.spawned.eraseIdx 0 = ts := by
    rw [some]
    rfl
  refine ⟨_, asked, ⟨h.isOpen, h.isOpen', capacity, h.buffer, ?_⟩, left⟩
  show ((d.channel.line ++ [t]) ++ d.spawned.eraseIdx 0).map Ticket.job = c.line
  rw [left, ← line, List.append_assoc]
  rfl

/-- Whoever goes in to the channel goes in at the desk. -/
theorem enter? (h : d.Carries c) (none : d.spawned = []) {c' : Channel Job}
    (entered : c.enter? 0 = .some (job, c')) :
    ∃ e, d.enter? 0 = .some e ∧ e.Carries c' ∧ e.spawned = [] := by
  have buffers := h.length_buffer
  have lines := h.length_line
  have capacity := h.capacity
  rw [none, List.length_nil] at lines
  obtain ⟨room, first⟩ := Channel.isSome_enter?_iff.1 (Option.isSome_of_eq_some entered)
  have some : (d.channel.enter? 0).isSome := Channel.isSome_enter?_iff.2 ⟨by omega, by omega⟩
  obtain ⟨⟨t, f⟩, entered'⟩ := Option.isSome_iff_exists.1 some
  obtain ⟨found, capacity₁, buffer₁, line₁, isOpen₁⟩ := Channel.enter?_eq_some entered
  obtain ⟨found₂, capacity₂, buffer₂, line₂, isOpen₂⟩ := Channel.enter?_eq_some entered'
  have line := h.line
  rw [none, List.append_nil] at line
  have same : t.job = job := by
    rw [← line, List.getElem?_map, found₂] at found
    exact Option.some.inj found
  have carries (e : Desk) (channel : e.channel = f) (spawned : e.spawned = []) : e.Carries c' := by
    refine ⟨?_, isOpen₁.trans h.isOpen', ?_, ?_, ?_⟩
    · rw [channel, isOpen₂, h.isOpen]
    · rw [channel, capacity₂, capacity₁, capacity]
    · rw [channel, buffer₂, buffer₁, List.map_append, h.buffer, ← same]
      rfl
    · rw [channel, spawned, List.append_nil, line₂, line₁, ← line, List.eraseIdx_map]
  rw [Desk.enter?, if_pos h.isOpen, entered', Option.map_some]
  dsimp only
  refine ⟨_, rfl, carries _ ?_ ?_, ?_⟩ <;> split <;> first | rfl | exact none

/-- What is taken from the channel is taken at the desk. -/
theorem take? (h : d.Carries c) {c' : Channel Job} (took : c.take? = .some (job, c')) :
    ∃ t e, d.take? = .some (t, e) ∧ t.job = job ∧ e.Carries c' ∧ e.spawned = d.spawned := by
  obtain ⟨buffer₁, capacity₁, line₁, isOpen₁⟩ := Channel.take?_eq_some took
  have buffer := h.buffer
  rw [buffer₁] at buffer
  cases took' : d.channel.take? with
  | none =>
    rw [Channel.take?_eq_none took'] at buffer
    cases buffer
  | some oldest =>
    obtain ⟨t, f⟩ := oldest
    obtain ⟨buffer₂, capacity₂, line₂, isOpen₂⟩ := Channel.take?_eq_some took'
    rw [buffer₂, List.map_cons] at buffer
    obtain ⟨same, rest⟩ := List.cons_eq_cons.1 buffer
    refine ⟨t, { d with channel := f, running := some t.root }, ?_, same,
      ⟨isOpen₂.trans h.isOpen, isOpen₁.trans h.isOpen', ?_, rest, ?_⟩, rfl⟩
    · rw [Desk.take?, took', Option.map_some]
    · rw [capacity₂, capacity₁, h.capacity]
    · rw [line₂, line₁, h.line]

end Carries

end Desk
namespace Workshop

variable {τ : Type} {r : Runner τ} {w v x : Workshop τ} {jobs jobs' : List Job}

/-- From one workshop to another, while others bring these jobs. -/
def Leads (r : Runner τ) (w : Workshop τ) (jobs : List Job) (v : Workshop τ) : Prop :=
  ∃ es, w.replay? r es = some v ∧ es.filterMap WorkshopEvent.job? = jobs

namespace Leads

theorem refl (w : Workshop τ) : w.Leads r [] w :=
  ⟨[], rfl, rfl⟩

theorem step {e : WorkshopEvent τ} (moved : w.step? r e = some v) :
    w.Leads r e.job?.toList v := by
  refine ⟨[e], by rw [replay?, moved]; rfl, ?_⟩
  rw [List.filterMap_cons]
  cases e.job? <;> rfl

theorem trans (h : w.Leads r jobs v) (h' : v.Leads r jobs' x) : w.Leads r (jobs ++ jobs') x := by
  obtain ⟨es, replayed, rfl⟩ := h
  obtain ⟨fs, later, rfl⟩ := h'
  refine ⟨es ++ fs, ?_, List.filterMap_append⟩
  induction es generalizing w with
  | nil =>
    cases replayed
    exact later
  | cons e es ih =>
    obtain ⟨next, moved, rest⟩ := Option.bind_eq_some_iff.1 replayed
    rw [List.cons_append, replay?, moved]
    exact ih rest

/-- The steps that the worker takes in the middle of a job. -/
theorem own {es : List (WorkshopEvent τ)} (isOwn : ∀ e ∈ es, e.IsOwn)
    (replayed : w.replay? r es = some v) : w.Leads r [] v := by
  refine ⟨es, replayed, List.filterMap_eq_nil_iff.2 fun e mem => ?_⟩
  have own := isOwn e mem
  cases e <;> first | rfl | cases own

end Leads

/-- Whoever stands at the front of the line goes in, again and again. -/
theorem leads_serveLine {c : Channel Job} (h : w.desk.Carries c) (none : w.desk.spawned = []) :
    ∃ d, w.Leads r [] (w.withDesk d) ∧ d.Carries c.serveLine ∧ d.spawned = [] := by
  generalize length : c.line.length = n
  induction n generalizing w c with
  | zero =>
    rw [Channel.Served.serveLine (.inl (List.eq_nil_of_length_eq_zero length))]
    exact ⟨w.desk, .refl w, h, none⟩
  | succ n ih =>
    cases entered : c.enter? 0 with
    | none =>
      rw [(Channel.served_of_enter?_eq_none entered).serveLine]
      exact ⟨w.desk, .refl w, h, none⟩
    | some first =>
      obtain ⟨job, rest⟩ := first
      obtain ⟨d, entered', carries, none'⟩ := h.enter? none entered
      have moved : w.step? r (.enter 0) = some (w.withDesk d) := by
        rw [step?, entered']
        rfl
      have shorter : rest.line.length = n := by
        obtain ⟨-, -, -, line, -⟩ := Channel.enter?_eq_some entered
        rw [line, List.length_eraseIdx_of_lt (by omega), length, Nat.add_sub_cancel]
      obtain ⟨e, later, served⟩ := ih (w := w.withDesk d) carries none' shorter
      rw [← Channel.serveLine_of_enter? entered]
      exact ⟨e, (Leads.step moved).trans later, served⟩

/-- The spawned tasks come to the channel, one after another. -/
theorem leads_asks {c : Channel Job} (h : w.desk.Carries c) (served : c.Served) :
    ∃ d, w.Leads r [] (w.withDesk d) ∧ d.Carries c ∧ d.spawned = [] := by
  generalize spawned : w.desk.spawned = ts
  induction ts generalizing w with
  | nil => exact ⟨w.desk, .refl w, h, spawned⟩
  | cons t ts ih =>
    obtain ⟨d, asked, carries, left⟩ := h.ask? served spawned
    have moved : w.step? r (.ask 0) = some (w.withDesk d) := by
      rw [step?, asked]
      rfl
    obtain ⟨e, later, all⟩ := ih (w := w.withDesk d) carries left
    exact ⟨e, (Leads.step moved).trans later, all⟩

/-- The sender sends jobs until one has to stand in line. -/
theorem leads_sendAll (jobs : List Job) {c : Channel Job} (h : w.desk.Carries c)
    (served : c.Served) (none : w.desk.spawned = []) :
    ∃ d sent, w.Leads r sent (w.withDesk d) ∧ sent ++ (JobSender.sendAll jobs c).1.jobs = jobs ∧
      d.Carries (JobSender.sendAll jobs c).2 ∧ (JobSender.sendAll jobs c).2.Served ∧
      d.spawned = [] := by
  induction jobs generalizing w c with
  | nil => exact ⟨w.desk, [], .refl w, rfl, h, served, none⟩
  | cons job jobs ih =>
    obtain ⟨carries, none'⟩ := h.send served none job
    have served' : (c.join job).2.Served := Channel.served_serveLine _
    have first : w.Leads r [job] (w.withDesk (w.desk.send job)) := Leads.step (e := .send job) rfl
    simp only [JobSender.sendAll]
    split
    · obtain ⟨d, sent, later, all, carries', rest⟩ :=
        ih (w := w.withDesk (w.desk.send job)) carries served' none'
      refine ⟨d, job :: sent, first.trans later, ?_, carries', rest⟩
      rw [List.cons_append, all]
    · exact ⟨w.desk.send job, [job], first, rfl, carries, served', none'⟩

theorem leads_proceed (s : JobSender) {c : Channel Job} (h : w.desk.Carries c)
    (served : c.Served) (none : w.desk.spawned = []) :
    ∃ d sent, w.Leads r sent (w.withDesk d) ∧ sent ++ (s.proceed c).1.jobs = s.jobs ∧
      d.Carries (s.proceed c).2 ∧ (s.proceed c).2.Served ∧ d.spawned = [] := by
  unfold JobSender.proceed
  split
  · split
    · exact leads_sendAll s.jobs h served none
    · exact ⟨w.desk, [], .refl w, rfl, h, served, none⟩
  · exact leads_sendAll s.jobs h served none

/-- The workshop is where the worker is, with the worker between two jobs. -/
structure Shows (w : Workshop τ) (u : Worker τ) : Prop where
  idle : w.phase = .idle
  bench : w.bench = u.bench.over w.desk
  carries : w.desk.Carries u.bench.queue.inbox
  served : u.bench.queue.inbox.Served
  spawned : w.desk.spawned = []
  followUps : u.bench.queue.followUps = none

theorem shows_start (capacity : Nat) (work : τ) (jobs : List Job) :
    (start capacity work).Shows (Worker.start capacity false work jobs) :=
  ⟨rfl, rfl, ⟨rfl, rfl, rfl, rfl, rfl⟩, .inl rfl, rfl, rfl⟩

theorem Shows.feed {u : Worker τ} (h : w.Shows u) :
    ∃ d sent, w.Leads r sent (w.withDesk d) ∧ sent ++ u.feed.sender.jobs = u.sender.jobs ∧
      (w.withDesk d).Shows u.feed := by
  obtain ⟨d, sent, leads, all, carries, served, spawned⟩ :=
    leads_proceed (r := r) u.sender h.carries h.served h.spawned
  refine ⟨d, sent, leads, all, h.idle, ?_, carries, served, spawned, h.followUps⟩
  show { w.bench with queue := d } = _
  rw [h.bench]
  rfl

end Workshop

namespace Worker

variable {τ : Type} {r : Runner τ} {u v : Worker τ} {w : Workshop τ}

/-- The desk stands for the queues of a worker whose follow-ups come back to it. -/
def ServedBy (q : WorkerQueues) (d : Desk) : Prop :=
  d.Carries q.inbox ∧ q.inbox.Served ∧ q.followUps = none

theorem alike_servedBy : Runner.Alike ServedBy := by
  intro job q d h
  obtain ⟨inbox, followUps⟩ := q
  obtain ⟨carries, served, rfl⟩ := h
  obtain ⟨answer, carries', served'⟩ := carries.submit served d.running job
  exact ⟨answer, carries', served', rfl⟩

/-- The worker with this channel. -/
def withInbox (u : Worker τ) (inbox : Channel Job) : Worker τ :=
  { u with bench := { u.bench with queue := { u.bench.queue with inbox } } }

theorem next?_eq_some (h : u.next? r = some v) :
    ∃ job inbox, u.feed.bench.queue.inbox.receive? = some (job, inbox) ∧
      v = { (u.feed.withInbox inbox).feed with
        bench := (r.run job (u.feed.withInbox inbox).feed.bench).2 } := by
  unfold next? at h
  simp only [] at h
  split at h
  · cases h
  · next job inbox received =>
    cases h
    exact ⟨job, inbox, received, rfl⟩

/-- A workshop may take the next job, too, and run it. -/
theorem next?_replayed (h : w.Shows u) (next : u.next? r = some v) :
    ∃ x sent, w.Leads r sent x ∧ sent ++ v.sender.jobs = u.sender.jobs ∧ x.Shows v := by
  obtain ⟨job, inbox, received, rfl⟩ := next?_eq_some next
  obtain ⟨d, sent, fed, all, shows⟩ := h.feed (r := r)
  obtain ⟨⟨job, rest⟩, took, same⟩ := Option.map_eq_some_iff.1 received
  cases same
  rw [shows.served.serveLine] at took
  -- The job is taken, the line moves up and the sender goes on.
  obtain ⟨t, d₁, took', rfl, carries₁, spawned₁⟩ := shows.carries.take? took
  let taken := (w.withDesk d).take t d₁
  have taking : (w.withDesk d).step? r .take = some taken := by
    rw [Workshop.step?, shows.idle]
    simp only [took', Option.map_some, taken]
  obtain ⟨d₂, moved, carries₂, spawned₂⟩ :=
    Workshop.leads_serveLine (r := r) (w := taken) carries₁ (spawned₁.trans shows.spawned)
  obtain ⟨d₃, sent', fed', all', carries₃, served₃, spawned₃⟩ :=
    Workshop.leads_proceed (r := r) (w := taken.withDesk d₂) u.feed.sender carries₂
      (Channel.served_serveLine rest) spawned₂
  let busy := (u.feed.withInbox rest.serveLine).feed
  -- The job is run.
  obtain ⟨own, ended, isOwn, replayed, idle, -, bench⟩ :=
    Workshop.replay?_sync r (w := taken.withDesk d₃) (t := t) rfl
  have before : (taken.withDesk d₃).bench =
      { busy.bench.over d₃ with executed := busy.bench.executed + 1 } := by
    show { w.bench with queue := d₃, executed := w.bench.executed + 1 } = _
    rw [h.bench]
    rfl
  obtain ⟨d₄, ⟨carries₄, served₄, followUps⟩, ran⟩ := Runner.run_over (r := r) alike_servedBy t.job
    (b := busy.bench) (q := d₃) ⟨carries₃, served₃, shows.followUps⟩
  have after : ended.bench = (r.run t.job busy.bench).2.over d₄ :=
    (bench _ before).trans (congrArg Prod.snd ran)
  have desk : ended.desk = d₄ := congrArg Bench.queue after
  -- Its follow-up stands in line if there was no room for it.
  obtain ⟨d₅, asked, carries₅, spawned₅⟩ :=
    Workshop.leads_asks (r := r) (w := ended) (desk ▸ carries₄) served₄
  refine ⟨ended.withDesk d₅, sent ++ sent', ?_, ?_,
    idle, ?_, carries₅, served₄, spawned₅, followUps⟩
  · have leads := ((fed.trans (.step taking)).trans moved).trans fed'
    have leads := (leads.trans (.own isOwn replayed)).trans asked
    simpa only [WorkshopEvent.job?, Option.toList_none, List.append_nil] using leads
  · rw [List.append_assoc, ← all]
    exact congrArg (sent ++ ·) all'
  · show { ended.bench with queue := d₅ } = _
    rw [after]
    rfl

/-- What a worker does by itself, a workshop may do, too. -/
theorem replayed_run (shutdown : Option Nat) (h : w.Shows u) :
    ∃ x sent, w.Leads r sent x ∧ sent ++ (u.run r shutdown).sender.jobs = u.sender.jobs ∧
      x.Shows (u.run r shutdown) := by
  fun_induction u.run r shutdown generalizing w with
  | case1 u _ => exact ⟨w, [], .refl w, rfl, h⟩
  | case2 u _ v next ih =>
    obtain ⟨x, sent, leads, all, shows⟩ := next?_replayed h next
    obtain ⟨y, sent', leads', all', shows'⟩ := ih shows
    refine ⟨y, sent ++ sent', leads.trans leads', ?_, shows'⟩
    rw [List.append_assoc, all', all]
  | case3 u _ none =>
    let now := shutdown.getD u.bench.now
    have moved : w.step? r (.outside now w.bench.work) =
        some { w with bench := { w.bench with now } } := rfl
    refine ⟨_, [], .step moved, rfl, h.idle, ?_, h.carries, h.served, h.spawned, h.followUps⟩
    show { w.bench with now } = _
    rw [h.bench]
    rfl

/-- A worker with its sender follows one of the schedules of a workshop. -/
theorem run_replayed (r : Runner τ) (shutdown : Option Nat) (capacity : Nat) (work : τ)
    (jobs : List Job) :
    ∃ es x, (Workshop.start capacity work).replay? r es = some x ∧
      es.filterMap WorkshopEvent.job? <+: jobs ∧
      x.Shows ((start capacity false work jobs).run r shutdown) := by
  obtain ⟨x, sent, ⟨es, replayed, rfl⟩, all, shows⟩ :=
    replayed_run (r := r) shutdown (Workshop.shows_start capacity work jobs)
  exact ⟨es, x, replayed, ⟨_, all⟩, shows⟩

/-- So it runs no more jobs than may come of those that are sent. -/
theorem executed_run_le (r : Runner τ) (shutdown : Option Nat) (capacity : Nat) (work : τ)
    (jobs : List Job) :
    ((start capacity false work jobs).run r shutdown).bench.executed ≤ r.potentials jobs := by
  obtain ⟨es, x, replayed, ⟨unsent, all⟩, shows⟩ := run_replayed r shutdown capacity work jobs
  have few := Workshop.executed_le_potentials replayed
  rw [shows.bench] at few
  have sent : r.potentials (es.filterMap WorkshopEvent.job?) ≤ r.potentials jobs := by
    rw [← all, Runner.potentials_append]
    exact Nat.le_add_right ..
  exact Nat.le_trans few sent

end Worker
end LeagueSync
