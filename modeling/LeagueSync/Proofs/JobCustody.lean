import LeagueSync.Proofs.WorkerPass

/-!
# LeagueSync.Proofs.JobCustody

No job is lost or run twice between those who bring jobs and the worker that runs them, in whatever
order they take their steps.

* `Workshop.Custody`: the invariant, kept by every step (`Workshop.custody_of_effect`).
* `Workshop.refuses_replay?`: a closed channel stays closed and has one answer only.
* `job_custody`: what follows for every reachable state.
-/

namespace LeagueSync

namespace Desk

/-- What becomes of a closed channel: it is still closed, and all further answers are refusals. -/
def Refuses (d e : Desk) : Prop :=
  e.channel.isOpen = false ∧
    ∃ more, e.answers = d.answers ++ more ∧ ∀ a ∈ more, a.2 = .error .queueClosed

theorem refuses_self {d : Desk} (isClosed : d.channel.isOpen = false) : d.Refuses d :=
  ⟨isClosed, [], (List.append_nil _).symm, fun _ none => nomatch none⟩

theorem Refuses.trans {d e f : Desk} (h : d.Refuses e) (h' : e.Refuses f) : d.Refuses f := by
  obtain ⟨-, more, answers, refused⟩ := h
  obtain ⟨isClosed, more', answers', refused'⟩ := h'
  refine ⟨isClosed, more ++ more', by rw [answers', answers, List.append_assoc], fun a mem => ?_⟩
  rcases List.mem_append.1 mem with mem | mem
  · exact refused a mem
  · exact refused' a mem

theorem Change.refuses {new : List Ticket} {d e : Desk} (h : Change new d e)
    (isClosed : d.channel.isOpen = false) : d.Refuses e := by
  have stays : e.channel.isOpen = false := by
    cases isOpen : e.channel.isOpen with
    | false => rfl
    | true => cases isClosed.symm.trans (h.kept isOpen).1
  obtain ⟨more, answers, refused⟩ := h.answers
  exact ⟨stays, more, answers, refused stays⟩

theorem answers_submit (d : Desk) (root : Option Nat) (job : Job) :
    (d.submit root job).2.answers =
      d.answers ++ [(d.ticket root job false,
        if d.channel.isOpen then .ok () else .error .queueClosed)] := by
  rw [submit]
  rcases d.channel.put?_cases (d.ticket root job false) with
    ⟨isOpen, c, put, -⟩ | ⟨isOpen, put⟩ | ⟨isClosed, put⟩
  · simp only [put, isOpen, if_true]
  · simp only [put, isOpen, if_true, spawn]
  · simp only [put, isClosed, Bool.false_eq_true, if_false]

theorem answers_send_of_closed {d : Desk} (isClosed : d.channel.isOpen = false) (job : Job) :
    (d.send job).answers = d.answers ++ [(d.ticket none job true, .error .queueClosed)] := by
  rw [send]
  rcases d.channel.put?_cases (d.ticket none job true) with
    ⟨isOpen, -⟩ | ⟨isOpen, -⟩ | ⟨-, put⟩
  · cases isClosed.symm.trans isOpen
  · cases isClosed.symm.trans isOpen
  · simp only [put]

theorem capacity_take? {d e : Desk} {t : Ticket} (h : d.take? = some (t, e)) :
    e.channel.capacity = d.channel.capacity := by
  obtain ⟨⟨u, c⟩, received, same⟩ := Option.map_eq_some_iff.1 h
  cases same
  exact (Channel.take?_eq_some received).2.1

theorem take?_refuses {d e : Desk} {t : Ticket} (h : d.take? = some (t, e))
    (isClosed : d.channel.isOpen = false) : d.Refuses e := by
  obtain ⟨⟨u, c⟩, received, same⟩ := Option.map_eq_some_iff.1 h
  cases same
  obtain ⟨-, -, -, isOpen⟩ := Channel.take?_eq_some received
  exact ⟨isOpen.trans isClosed, [], (List.append_nil _).symm, fun _ none => nomatch none⟩

end Desk

namespace Workshop

variable {τ : Type} {r : Runner τ} {w v : Workshop τ} {e : WorkshopEvent τ}
  {es : List (WorkshopEvent τ)}

theorem numbered_brings (d : Desk) (e : WorkshopEvent τ) :
    (e.brings d).map Ticket.number = List.range' d.issued.length (e.brings d).length := by
  cases e <;> rfl

/-- The log, the tickets and the room of a channel are in order. -/
structure Custody (capacity : Nat) (w : Workshop τ) : Prop where
  shaped : w.Shaped
  keeps : w.desk.Keeps w.taken
  room : w.desk.channel.capacity = max 1 capacity

theorem custody_start (capacity : Nat) (work : τ) : (start capacity work).Custody capacity :=
  ⟨⟨rfl, rfl⟩, Desk.keeps_ofCapacity capacity, rfl⟩

theorem custody_of_effect {capacity : Nat} (h : w.Custody capacity) (effect : Effect r w e v) :
    v.Custody capacity := by
  have shaped := shaped_of_effect h.shaped effect
  have keeps := h.keeps
  have room := h.room
  cases effect with
  | outside change _ log =>
    refine ⟨shaped, ?_, change.capacity.trans room⟩
    rw [taken, log]
    exact keeps.change (numbered_brings w.desk e) change
  | take _ took _ log =>
    refine ⟨shaped, ?_, (Desk.capacity_take? took).trans room⟩
    rw [taken_of_log log]
    exact keeps.take took
  | sync _ desk _ log =>
    rw [← desk, ← taken_of_log_none log rfl] at keeps
    exact ⟨shaped, keeps, desk ▸ room⟩
  | syncNothing _ desk _ log =>
    rw [← desk, ← taken_of_log_none log rfl] at keeps
    exact ⟨shaped, keeps, desk ▸ room⟩
  | settle _ desk _ log =>
    split at desk
    · have change := desk ▸ w.desk.change_submit _ _
      refine ⟨shaped, ?_, change.capacity.trans room⟩
      rw [taken, log]
      exact keeps.change rfl change
    · rw [← desk] at keeps
      refine ⟨shaped, ?_, desk ▸ room⟩
      rwa [taken, log]
  | record _ desk _ log =>
    rw [← desk, ← taken_of_log_none log rfl] at keeps
    exact ⟨shaped, keeps, desk ▸ room⟩
  | stop _ _ desk _ log =>
    rw [← desk, ← taken_of_log_none log rfl] at keeps
    exact ⟨shaped, keeps, desk ▸ room⟩

theorem custody_replay? {capacity : Nat} {work : τ}
    (h : (start capacity work).replay? r es = some w) : w.Custody capacity :=
  replay?_invariant (I := Custody capacity) (fun _ _ _ => custody_of_effect)
    (custody_start capacity work) h

theorem refuses_of_effect (isClosed : w.desk.channel.isOpen = false) (effect : Effect r w e v) :
    w.desk.Refuses v.desk := by
  cases effect with
  | outside change => exact change.refuses isClosed
  | take _ took => exact Desk.take?_refuses took isClosed
  | sync _ desk =>
    rw [desk]
    exact Desk.refuses_self isClosed
  | syncNothing _ desk =>
    rw [desk]
    exact Desk.refuses_self isClosed
  | settle _ desk =>
    rw [desk]
    split
    · exact (w.desk.change_submit _ _).refuses isClosed
    · exact Desk.refuses_self isClosed
  | record _ desk =>
    rw [desk]
    exact Desk.refuses_self isClosed
  | stop _ _ desk =>
    rw [desk]
    exact Desk.refuses_self isClosed

theorem refuses_replay? (isClosed : w.desk.channel.isOpen = false)
    (h : w.replay? r es = some v) : w.desk.Refuses v.desk :=
  replay?_invariant (I := fun x => w.desk.Refuses x.desk)
    (fun _ _ _ refuses effect => refuses.trans (refuses_of_effect refuses.1 effect))
    (Desk.refuses_self isClosed) h

namespace Custody

variable {capacity : Nat}

/-- Who was answered positively while the channel is open is in one place, and there once. -/
theorem accepted_perm (h : w.Custody capacity) (isOpen : w.desk.channel.isOpen = true) :
    w.desk.accepted.Perm
      (w.desk.channel.buffer ++ w.desk.deferred ++ w.phase.inHand ++ w.executed) := by
  refine List.perm_iff_count.2 fun t => ?_
  have kept := h.keeps.kept isOpen t
  rw [h.shaped.taken] at kept
  simp only [Desk.held, List.count_append] at kept ⊢
  omega

theorem nodup_accepted (h : w.Custody capacity) : w.desk.accepted.Nodup := by
  have once : (w.desk.answers.map Prod.fst).Nodup := by
    refine List.nodup_iff_count_le_one.2 fun t => ?_
    have answered := h.keeps.answered t
    have issued := List.nodup_iff_count_le_one.1 h.keeps.nodup_issued t
    omega
  exact once.sublist (List.filter_sublist.map Prod.fst)

theorem nodup_taken (h : w.Custody capacity) : w.taken.Nodup := by
  refine List.nodup_iff_count_le_one.2 fun t => ?_
  have located := h.keeps.located t
  have issued := List.nodup_iff_count_le_one.1 h.keeps.nodup_issued t
  omega

theorem length_buffer_le (h : w.Custody capacity) :
    w.desk.channel.buffer.length ≤ max 1 capacity := by
  rw [← h.room]
  exact w.desk.channel.buffer_le

end Custody

end Workshop

open Workshop in
/-- Whatever those who bring jobs, the tasks spawned for them and the worker have done so far: the
channel holds no more than it has room for. While its receiver is there, whoever got a positive
answer has its ticket in exactly one place. Bringing a job without waiting takes one step, with
which the worker has nothing to do, and its answer is negative only if the receiver is gone; so it
is with the worker's own follow-ups. A job that the worker took is synced and noted before another
one is taken and before the worker stops, no job twice, and the worker needs nobody for it. Once the
receiver is gone it stays gone, and there is only one answer to whoever brings a job. -/
theorem job_custody {τ : Type} (r : Runner τ) (capacity : Nat) (work : τ)
    (es : List (WorkshopEvent τ)) (w : Workshop τ)
    (h : (start capacity work).replay? r es = some w) :
    let desk := w.desk
    let isOpen := desk.channel.isOpen
    desk.channel.buffer.length ≤ max 1 capacity ∧
      (isOpen = true → desk.accepted.Nodup ∧
        desk.accepted.Perm
          (desk.channel.buffer ++ desk.deferred ++ w.phase.inHand ++ w.executed)) ∧
      (∀ job, ∃ v, w.step? r (.submit job) = some v ∧ v.phase = w.phase ∧ v.log = w.log ∧
        v.desk.answers = desk.answers ++
          [(desk.ticket none job false, if isOpen then .ok () else .error .queueClosed)]) ∧
      (∀ t outcome start, w.phase = .settling t outcome start → ∃ v, w.step? r .settle = some v ∧
        v.phase = .recording t outcome start ∧
        (r.Retries t.job outcome → v.desk.answers = desk.answers ++
          [(desk.ticket desk.running
              (t.job.followUp outcome.failedIds (r.timeOfDay w.bench.now)) false,
            if isOpen then .ok () else .error .queueClosed)])) ∧
      w.taken.Nodup ∧
      w.log = w.executed.flatMap WorkerNote.pass ++ w.phase.begun ∧
      (w.phase.inHand ≠ [] → ∃ own v, (∀ e ∈ own, e.IsOwn) ∧ w.replay? r own = some v ∧
        v.phase = .idle ∧ v.executed = w.executed ++ w.phase.inHand) ∧
      (isOpen = false →
        (∀ job, ∃ v, w.step? r (.send job) = some v ∧ v.desk.answers = desk.answers ++
          [(desk.ticket none job true, .error .queueClosed)]) ∧
        ∀ later v, w.replay? r later = some v → desk.Refuses v.desk) := by
  intro desk isOpen
  have custody := custody_replay? h
  refine ⟨custody.length_buffer_le, fun wasOpen => ⟨custody.nodup_accepted,
    custody.accepted_perm wasOpen⟩, ?_, ?_, custody.nodup_taken, custody.shaped.log, finishes r w,
    fun isClosed => ⟨?_, ?_⟩⟩
  · intro job
    exact ⟨_, rfl, rfl, rfl, desk.answers_submit none job⟩
  · intro t outcome start settling
    refine ⟨w.settle r t outcome start, ?_, rfl, fun retries => ?_⟩
    · rw [step?, settling]
    · have queue := r.queue_settle t.job outcome w.bench
      rw [if_pos retries] at queue
      exact (congrArg Desk.answers queue).trans (desk.answers_submit desk.running _)
  · intro job
    exact ⟨_, rfl, Desk.answers_send_of_closed isClosed job⟩
  · intro later v replayed
    exact refuses_replay? isClosed replayed

/-- There is room for one job. While the first one is synced, two more come, and the follow-up of
the first finds the channel promised to one of them. Then a shutdown closes the channel. -/
theorem job_custody_crowded :
    let r : Runner Unit := {
      syncer := {
        sync := fun _ unit work =>
          (⟨5, if unit.1 = 9 then .brokeDown else .returned (.ok ())⟩, work)
        directory := fun _ => .ok [] }
      maxRetryCycles := 1
      concurrency := 1
      concurrency_pos := by decide
      timeOfDay := fun _ => .epoch
      workflowName := fun _ => "" }
    let job (id : EntryId) : Job := .first (some [id]) .manual .epoch
    let crowded : List (WorkshopEvent Unit) :=
      [.send (job 9), .submit (job 1), .send (job 2), .take, .sync, .ask 0, .settle, .enter 0]
    let closing : List (WorkshopEvent Unit) := [.record, .signal, .stop, .close]
    (∃ w, (Workshop.start 0 ()).replay? r crowded = some w ∧
      w.desk.accepted.map Ticket.number = [0, 1, 3, 2] ∧
      (w.desk.channel.buffer ++ w.desk.deferred ++ w.phase.inHand ++ w.executed).map Ticket.number =
        [2, 3, 1, 0] ∧
      w.desk.channel.buffer.length ≤ 1 ∧ w.desk.accepted.Nodup) ∧
    ∃ w, (Workshop.start 0 ()).replay? r (crowded ++ closing) = some w ∧
      w.log.length = 4 ∧ w.log = w.executed.flatMap WorkerNote.pass ++ w.phase.begun ∧
      ∃ v, w.step? r (.send (job 3)) = some v ∧ v.desk.answers = w.desk.answers ++
        [(w.desk.ticket none (job 3) true, .error .queueClosed)] := by
  intro r job crowded closing
  constructor
  · have facts : ((Workshop.start 0 ()).replay? r crowded).map (fun w =>
        (w.desk.accepted.map Ticket.number,
          (w.desk.channel.buffer ++ w.desk.deferred ++ w.phase.inHand ++ w.executed).map
            Ticket.number,
          w.desk.channel.isOpen)) = some ([0, 1, 3, 2], [2, 3, 1, 0], true) := by
      decide +kernel
    obtain ⟨w, replayed, same⟩ := Option.map_eq_some_iff.1 facts
    simp only [Prod.mk.injEq] at same
    obtain ⟨fits, kept, -⟩ := job_custody r 0 () crowded w replayed
    exact ⟨w, replayed, same.1, same.2.1, fits, (kept same.2.2).1⟩
  · have facts : ((Workshop.start 0 ()).replay? r (crowded ++ closing)).map (fun w =>
        (w.log.length, w.desk.channel.isOpen)) = some (4, false) := by
      decide +kernel
    obtain ⟨w, replayed, same⟩ := Option.map_eq_some_iff.1 facts
    simp only [Prod.mk.injEq] at same
    obtain ⟨-, -, -, -, -, log, -, closed⟩ := job_custody r 0 () (crowded ++ closing) w replayed
    exact ⟨w, replayed, same.1, log, (closed same.2).1 (job 3)⟩

end LeagueSync
