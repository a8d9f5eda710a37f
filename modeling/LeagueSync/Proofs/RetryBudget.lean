import LeagueSync.Batch.Drain
import LeagueSync.Proofs.JobCustody

/-!
# LeagueSync.Proofs.RetryBudget

How much a worker will ever do for the jobs that others bring, if its follow-ups come back to the
channel that it takes its jobs from.

* `Lineage`: the jobs of one root, as they must be. They are run one generation after the other; at
  most one waits, and none does while another one is being synced.
* `Workshop.budget_of_effect`: every step keeps this for every root.
* `Lineage.length_le`, `Workshop.length_le_potentials`: so many jobs come of one root, and of all.
* `retry_budget`: what follows for every reachable state.
-/

namespace LeagueSync

/-- The tickets that go back to this one. -/
def ofRoot (root : Nat) (ts : List Ticket) : List Ticket :=
  ts.filter (·.root = root)

theorem mem_ofRoot {root : Nat} {ts : List Ticket} {t : Ticket} :
    t ∈ ofRoot root ts ↔ t ∈ ts ∧ t.root = root := by
  simp [ofRoot]

theorem ofRoot_append (root : Nat) (ts us : List Ticket) :
    ofRoot root (ts ++ us) = ofRoot root ts ++ ofRoot root us :=
  List.filter_append ts us

theorem ofRoot_self (t : Ticket) : ofRoot t.root [t] = [t] := by
  simp [ofRoot]

theorem ofRoot_of_ne {root : Nat} {t : Ticket} (h : t.root ≠ root) : ofRoot root [t] = [] := by
  simp [ofRoot, h]

/-- The jobs of a root: those that were run, those that wait, and those that were taken and are not
settled yet. -/
structure Lineage (limit : Nat) (root : Ticket) (ran waiting unsettled : List Ticket) : Prop where
  inTurn : ran.map (·.job.retryCount) = List.range' root.job.retryCount ran.length
  next : ∀ t ∈ waiting, t.job.retryCount = root.job.retryCount + ran.length
  one : waiting.length ≤ 1
  alone : unsettled ≠ [] → waiting = []
  bounded : ∀ t ∈ ran ++ waiting, t.job.retryCount ≤ max limit root.job.retryCount

namespace Lineage

variable {limit : Nat} {root t : Ticket} {ran waiting unsettled : List Ticket}

theorem fresh (limit : Nat) (root : Ticket) (h : waiting.Subperm [root]) :
    Lineage limit root [] waiting [] := by
  have same : ∀ t ∈ waiting, t = root := fun t mem => List.mem_singleton.1 (h.subset mem)
  refine ⟨rfl, fun t mem => ?_, h.length_le, fun none => absurd rfl none, fun t mem => ?_⟩
  · rw [same t mem]
    rfl
  · rw [same t mem]
    exact Nat.le_max_right ..

theorem lose {waiting' unsettled' : List Ticket} (h : Lineage limit root ran waiting unsettled)
    (fewer : waiting'.Subperm waiting) (settled : unsettled' ≠ [] → unsettled ≠ []) :
    Lineage limit root ran waiting' unsettled' := by
  refine ⟨h.inTurn, fun t mem => h.next t (fewer.subset mem), Nat.le_trans fewer.length_le h.one,
    fun busy => ?_, fun t mem => h.bounded t ?_⟩
  · rw [h.alone (settled busy)] at fewer
    exact List.subperm_nil.1 fewer
  · rcases List.mem_append.1 mem with mem | mem
    · exact List.mem_append_left _ mem
    · exact List.mem_append_right _ (fewer.subset mem)

theorem take {waiting' : List Ticket} (h : Lineage limit root ran waiting unsettled)
    (took : waiting.Perm (t :: waiting')) (busy : List Ticket) :
    Lineage limit root (ran ++ [t]) waiting' busy := by
  have waited : t ∈ waiting := took.symm.subset (List.mem_cons_self ..)
  have none : waiting' = [] := by
    have one := h.one
    rw [took.length_eq, List.length_cons] at one
    exact List.eq_nil_of_length_eq_zero (by omega)
  subst none
  refine ⟨?_, ?_, Nat.zero_le 1, fun _ => rfl, fun u mem => ?_⟩
  · rw [List.map_append, h.inTurn, List.length_append, List.length_singleton, List.range'_concat,
      List.map_singleton, h.next t waited, Nat.one_mul]
  · intro u none
    cases none
  · rw [List.append_nil] at mem
    rcases List.mem_append.1 mem with mem | mem
    · exact h.bounded u (List.mem_append_left _ mem)
    · rw [List.mem_singleton.1 mem]
      exact h.bounded t (List.mem_append_right _ waited)

/-- The one that was run last is settled, and another one follows. -/
theorem follow {next : Ticket} {waiting' : List Ticket}
    (h : Lineage limit root (ran ++ [t]) waiting unsettled)
    (more : t.job.retryCount < limit) (count : next.job.retryCount = t.job.retryCount + 1)
    (only : waiting'.Subperm [next]) : Lineage limit root (ran ++ [t]) waiting' [] := by
  have same : ∀ u ∈ waiting', u = next := fun u mem => List.mem_singleton.1 (only.subset mem)
  have last : t.job.retryCount = root.job.retryCount + ran.length := by
    have inTurn := h.inTurn
    rw [List.map_append, List.length_append, List.length_singleton, List.range'_concat,
      Nat.one_mul] at inTurn
    exact List.singleton_inj.1 (List.append_inj_right' inTurn rfl)
  refine ⟨h.inTurn, fun u mem => ?_, only.length_le, fun none => absurd rfl none, fun u mem => ?_⟩
  · rw [same u mem, count, last, List.length_append, List.length_singleton, Nat.add_assoc]
  · rcases List.mem_append.1 mem with mem | mem
    · exact h.bounded u (List.mem_append_left _ mem)
    · rw [same u mem, count]
      exact Nat.le_trans more (Nat.le_max_left ..)

theorem length_le (h : Lineage limit root ran waiting unsettled) :
    ran.length ≤ limit - root.job.retryCount + 1 := by
  cases length : ran.length with
  | zero => exact Nat.zero_le _
  | succ n =>
    have last : root.job.retryCount + n ∈ ran.map (·.job.retryCount) := by
      rw [h.inTurn, List.mem_range'_1]
      omega
    obtain ⟨t, mem, count⟩ := List.mem_map.1 last
    have bounded := h.bounded t (List.mem_append_left _ mem)
    omega

end Lineage

namespace Desk

/-- The tickets from outside. -/
def roots (d : Desk) : List Ticket :=
  d.issued.filter fun t => t.root = t.number

theorem mem_roots {d : Desk} {t : Ticket} : t ∈ d.roots ↔ t ∈ d.issued ∧ t.root = t.number := by
  simp [roots]

theorem roots_of_change {d e : Desk} {new : List Ticket} (change : Change new d e)
    (isRoot : ∀ t ∈ new, t.root = t.number) : e.roots = d.roots ++ new := by
  have all : new.filter (fun t => t.root = t.number) = new :=
    List.filter_eq_self.2 fun t mem => decide_eq_true (isRoot t mem)
  rw [roots, change.issued, List.filter_append, all, roots]

theorem roots_of_follow {d e : Desk} {next : Ticket} (change : Change [next] d e)
    (follows : next.root ≠ next.number) : e.roots = d.roots := by
  have none : [next].filter (fun t => t.root = t.number) = [] := by simp [follows]
  rw [roots, change.issued, List.filter_append, none, List.append_nil, roots]

theorem subperm_ofRoot {d e : Desk} {new : List Ticket}
    (h : ∀ x, e.pending.count x ≤ new.count x + d.pending.count x) (root : Nat) :
    (ofRoot root e.pending).Subperm (ofRoot root new ++ ofRoot root d.pending) := by
  have moved : e.pending.Subperm (new ++ d.pending) := by
    refine List.subperm_ext_iff.2 fun x _ => ?_
    rw [List.count_append]
    exact h x
  rw [← ofRoot_append]
  exact moved.filter _

theorem perm_ofRoot_take? {d e : Desk} {t : Ticket} (h : d.take? = some (t, e)) (root : Nat) :
    (ofRoot root d.pending).Perm (ofRoot root [t] ++ ofRoot root e.pending) := by
  obtain ⟨⟨u, c⟩, received, same⟩ := Option.map_eq_some_iff.1 h
  cases same
  obtain ⟨buffer, -, line, -⟩ := Channel.take?_eq_some received
  rw [← ofRoot_append, pending, pending, buffer, line]
  exact .refl _

theorem issued_take? {d e : Desk} {t : Ticket} (h : d.take? = some (t, e)) :
    e.issued = d.issued ∧ e.running = some t.root := by
  obtain ⟨⟨u, c⟩, received, same⟩ := Option.map_eq_some_iff.1 h
  cases same
  exact ⟨rfl, rfl⟩

namespace Keeps

variable {d : Desk} {taken : List Ticket} {t : Ticket}

theorem number_lt (h : d.Keeps taken) (mem : t ∈ d.issued) : t.number < d.issued.length := by
  have number : t.number ∈ List.range d.issued.length := h.numbered ▸ List.mem_map_of_mem mem
  exact List.mem_range.1 number

theorem issued_of_located (h : d.Keeps taken) (mem : t ∈ d.pending ++ taken) : t ∈ d.issued := by
  have located := h.located t
  rw [← List.count_append] at located
  exact List.count_pos_iff.1 (Nat.lt_of_lt_of_le (List.count_pos_iff.2 mem) located)

end Keeps

end Desk

namespace Workshop

variable {τ : Type} {r : Runner τ} {w v : Workshop τ} {e : WorkshopEvent τ}
  {es : List (WorkshopEvent τ)} {capacity : Nat}

/-- The jobs of every root are as they must be. -/
structure Budget (r : Runner τ) (w : Workshop τ) : Prop where
  rooted : ∀ t ∈ w.desk.issued, ∃ root ∈ w.desk.roots, root.number = t.root
  lineage : ∀ root ∈ w.desk.roots, Lineage r.maxRetryCycles root (ofRoot root.number w.taken)
    (ofRoot root.number w.desk.pending) (ofRoot root.number w.phase.unsettled)
  running : ∀ t ∈ w.phase.unsettled, w.desk.running = some t.root

theorem budget_start (r : Runner τ) (capacity : Nat) (work : τ) :
    (start capacity work).Budget r := by
  refine ⟨?_, ?_, ?_⟩
  · intro t none
    cases none
  · intro root none
    cases none
  · intro t none
    cases none

theorem Shaped.mem_taken_of_unsettled (h : w.Shaped) {t : Ticket} (mem : t ∈ w.phase.unsettled) :
    t ∈ w.taken := by
  rw [h.taken]
  refine List.mem_append_right _ ?_
  cases phase : w.phase <;> rw [phase] at mem <;> first | exact mem | cases mem

namespace Budget

theorem root_lt (h : w.Budget r) (keeps : w.desk.Keeps w.taken) {t : Ticket}
    (issued : t ∈ w.desk.issued) : t.root < w.desk.issued.length := by
  obtain ⟨root, isRoot, same⟩ := h.rooted t issued
  rw [← same]
  exact keeps.number_lt (Desk.mem_roots.1 isRoot).1

/-- A root that was never heard of has no tickets. -/
theorem ofRoot_unissued (h : w.Budget r) (keeps : w.desk.Keeps w.taken) {ts : List Ticket}
    (issued : ∀ t ∈ ts, t ∈ w.desk.issued) : ofRoot w.desk.issued.length ts = [] := by
  refine List.filter_eq_nil_iff.2 fun t mem same => ?_
  have lt := h.root_lt keeps (issued t mem)
  rw [of_decide_eq_true same] at lt
  exact Nat.lt_irrefl _ lt

/-- Nothing happens to the tickets, but a job may be settled. -/
theorem of_same (h : w.Budget r) (desk : v.desk = w.desk) (taken : v.taken = w.taken)
    (settled : ∀ t ∈ v.phase.unsettled, t ∈ w.phase.unsettled) : v.Budget r := by
  refine ⟨?_, ?_, ?_⟩
  · rw [desk]
    exact h.rooted
  · rw [desk, taken]
    intro root isRoot
    refine (h.lineage root isRoot).lose (.refl _) fun busy => ?_
    obtain ⟨t, mem⟩ := List.exists_mem_of_ne_nil _ busy
    obtain ⟨mem, same⟩ := mem_ofRoot.1 mem
    exact List.ne_nil_of_mem (mem_ofRoot.2 ⟨settled t mem, same⟩)
  · rw [desk]
    exact fun t mem => h.running t (settled t mem)

/-- Somebody else brings a ticket, or tickets get lost. -/
theorem of_change (h : w.Budget r) (custody : w.Custody capacity) {new : List Ticket}
    (change : Desk.Change new w.desk v.desk)
    (isRoot : ∀ t ∈ new, new = [t] ∧ t.number = w.desk.issued.length ∧
      t.root = w.desk.issued.length)
    (taken : v.taken = w.taken) (phase : v.phase = w.phase) : v.Budget r := by
  have keeps := custody.keeps
  have roots := Desk.roots_of_change change fun t mem =>
    (isRoot t mem).2.2.trans (isRoot t mem).2.1.symm
  refine ⟨fun t mem => ?_, fun root mem => ?_, fun t mem => ?_⟩
  · rw [change.issued] at mem
    rw [roots]
    rcases List.mem_append.1 mem with old | new
    · obtain ⟨root, mem, number⟩ := h.rooted t old
      exact ⟨root, List.mem_append_left _ mem, number⟩
    · exact ⟨t, List.mem_append_right _ new, (isRoot t new).2.1.trans (isRoot t new).2.2.symm⟩
  · rw [roots] at mem
    rw [taken, phase]
    have moved := Desk.subperm_ofRoot change.pending root.number
    rcases List.mem_append.1 mem with old | mem
    · have lt := keeps.number_lt (Desk.mem_roots.1 old).1
      have others : ofRoot root.number new = [] :=
        List.filter_eq_nil_iff.2 fun t mem same => by
          have := (isRoot t mem).2.2.symm.trans (of_decide_eq_true same)
          omega
      rw [others, List.nil_append] at moved
      exact (h.lineage root old).lose moved id
    · obtain ⟨only, number, self⟩ := isRoot root mem
      have unheard (ts : List Ticket) (located : ∀ t ∈ ts, t ∈ w.desk.pending ++ w.taken) :
          ofRoot root.number ts = [] := by
        rw [number]
        exact h.ofRoot_unissued keeps fun t mem => keeps.issued_of_located (located t mem)
      have ran := unheard w.taken fun t mem => List.mem_append_right _ mem
      have waiting := unheard w.desk.pending fun t mem => List.mem_append_left _ mem
      have unsettled := unheard w.phase.unsettled fun t mem =>
        List.mem_append_right _ (custody.shaped.mem_taken_of_unsettled mem)
      rw [waiting, List.append_nil, only] at moved
      rw [ran, unsettled]
      exact .fresh _ _ (moved.trans List.filter_sublist.subperm)
  · rw [phase] at mem
    rw [change.running]
    exact h.running t mem

theorem of_take (h : w.Budget r) {t : Ticket} (took : w.desk.take? = some (t, v.desk))
    (phase : v.phase = .syncing t) (taken : v.taken = w.taken ++ [t]) : v.Budget r := by
  obtain ⟨issued, running⟩ := Desk.issued_take? took
  have roots : v.desk.roots = w.desk.roots := by rw [Desk.roots, issued, Desk.roots]
  refine ⟨?_, fun root mem => ?_, fun u mem => ?_⟩
  · rw [roots, issued]
    exact h.rooted
  · rw [roots] at mem
    rw [taken, phase, ofRoot_append]
    have lineage := h.lineage root mem
    have moved := Desk.perm_ofRoot_take? took root.number
    by_cases own : t.root = root.number
    · rw [← own, ofRoot_self] at moved ⊢
      rw [← own] at lineage
      exact lineage.take moved _
    · rw [ofRoot_of_ne own] at moved ⊢
      rw [List.append_nil]
      refine lineage.lose moved.symm.subperm fun busy => absurd (ofRoot_of_ne own) busy
  · rw [phase] at mem
    rw [List.mem_singleton.1 mem]
    exact running

theorem of_follow (h : w.Budget r) (custody : w.Custody capacity) {t next : Ticket}
    {outcome : Outcome} {start : Nat} (busy : w.phase = .settling t outcome start)
    (more : t.job.retryCount < r.maxRetryCycles)
    (change : Desk.Change [next] w.desk v.desk) (number : next.number = w.desk.issued.length)
    (root : next.root = t.root) (count : next.job.retryCount = t.job.retryCount + 1)
    (phase : v.phase = .recording t outcome start) (taken : v.taken = w.taken) : v.Budget r := by
  have keeps := custody.keeps
  have last : w.taken = w.executed ++ [t] := by
    rw [custody.shaped.taken, busy]
    rfl
  have issued : t ∈ w.desk.issued :=
    keeps.issued_of_located (List.mem_append_right _ (by rw [last]; exact List.mem_concat_self))
  obtain ⟨origin, isRoot, same⟩ := h.rooted t issued
  have roots := Desk.roots_of_follow change (by
    have lt := h.root_lt keeps issued
    rw [number, root]
    omega)
  refine ⟨fun u mem => ?_, fun o mem => ?_, fun u mem => ?_⟩
  · rw [change.issued] at mem
    rw [roots]
    rcases List.mem_append.1 mem with old | new
    · exact h.rooted u old
    · rw [List.mem_singleton.1 new, root]
      exact ⟨origin, isRoot, same⟩
  · rw [roots] at mem
    rw [taken, phase]
    have lineage := h.lineage o mem
    have moved := Desk.subperm_ofRoot change.pending o.number
    rw [busy] at lineage
    by_cases own : t.root = o.number
    · have unsettled : ofRoot o.number [t] ≠ [] := by
        rw [← own, ofRoot_self]
        exact List.cons_ne_nil t []
      rw [lineage.alone unsettled, List.append_nil] at moved
      rw [last, ofRoot_append, ← own, ofRoot_self] at lineage ⊢
      refine lineage.follow more count ?_
      rw [own]
      exact moved.trans List.filter_sublist.subperm
    · rw [ofRoot_of_ne fun same => own (root.symm.trans same), List.nil_append] at moved
      exact lineage.lose moved fun none => absurd rfl none
  · rw [phase] at mem
    cases mem

end Budget

theorem brings_root (d : Desk) (e : WorkshopEvent τ) :
    ∀ t ∈ e.brings d, e.brings d = [t] ∧ t.number = d.issued.length ∧ t.root = d.issued.length := by
  intro t mem
  cases e with
  | send | submit =>
    rw [List.mem_singleton.1 mem]
    exact ⟨rfl, rfl, rfl⟩
  | _ => cases mem

theorem budget_of_effect (h : w.Budget r) (custody : w.Custody capacity)
    (effect : Effect r w e v) : v.Budget r := by
  cases effect with
  | outside change phase log =>
    exact h.of_change custody change (brings_root w.desk e) (by rw [taken, log, taken]) phase
  | take _ took phase log => exact h.of_take took phase (taken_of_log log)
  | sync busy desk phase log =>
    refine h.of_same desk (taken_of_log_none log rfl) ?_
    rw [phase, busy]
    exact fun _ => id
  | syncNothing busy desk phase log =>
    refine h.of_same desk (taken_of_log_none log rfl) ?_
    rw [phase]
    intro t none
    cases none
  | @settle _ t _ _ busy desk phase log =>
    have taken : v.taken = w.taken := by rw [taken, log, taken]
    split at desk
    · next retries =>
      have running := h.running t (by rw [busy]; exact List.mem_singleton_self t)
      exact h.of_follow custody busy retries.2 (desk ▸ w.desk.change_submit _ _) rfl
        (by rw [running]; rfl) rfl phase taken
    · refine h.of_same desk taken ?_
      rw [phase]
      intro t none
      cases none
  | record busy desk phase log =>
    refine h.of_same desk (taken_of_log_none log rfl) ?_
    rw [phase]
    intro t none
    cases none
  | stop idle _ desk phase log =>
    refine h.of_same desk (taken_of_log_none log rfl) ?_
    rw [phase]
    intro t none
    cases none

theorem budget_replay? {work : τ} (h : (start capacity work).replay? r es = some w) :
    w.Custody capacity ∧ w.Budget r :=
  replay?_invariant (I := fun x => x.Custody capacity ∧ x.Budget r)
    (fun _ _ _ kept effect =>
      ⟨custody_of_effect kept.1 effect, budget_of_effect kept.2 kept.1 effect⟩)
    ⟨custody_start capacity work, budget_start r capacity work⟩ h

/-- Nobody but the worker brings follow-ups, and the roots are the jobs of the others. -/
theorem roots_of_effect (h : w.Budget r) (custody : w.Custody capacity)
    (effect : Effect r w e v) :
    v.desk.roots.map Ticket.job = w.desk.roots.map Ticket.job ++ e.job?.toList := by
  cases effect with
  | outside change =>
    have roots := Desk.roots_of_change change fun t mem =>
      (brings_root w.desk e t mem).2.2.trans (brings_root w.desk e t mem).2.1.symm
    rw [roots, List.map_append]
    cases e <;> rfl
  | take _ took =>
    rw [Desk.roots, (Desk.issued_take? took).1]
    exact (List.append_nil _).symm
  | sync _ desk =>
    rw [desk]
    exact (List.append_nil _).symm
  | syncNothing _ desk =>
    rw [desk]
    exact (List.append_nil _).symm
  | @settle _ t _ _ busy desk =>
    refine Eq.trans ?_ (List.append_nil _).symm
    split at desk
    · have mem : t ∈ w.phase.unsettled := by
        rw [busy]
        exact List.mem_singleton_self t
      have issued := custody.keeps.issued_of_located
        (List.mem_append_right _ (custody.shaped.mem_taken_of_unsettled mem))
      have lt := h.root_lt custody.keeps issued
      rw [Desk.roots_of_follow (desk ▸ w.desk.change_submit _ _)]
      rw [h.running t mem]
      exact Nat.ne_of_lt lt
    · rw [desk]
  | record _ desk =>
    rw [desk]
    exact (List.append_nil _).symm
  | stop _ _ desk =>
    rw [desk]
    exact (List.append_nil _).symm

theorem roots_replay? (h : w.Budget r) (custody : w.Custody capacity)
    (replayed : w.replay? r es = some v) :
    v.desk.roots.map Ticket.job =
      w.desk.roots.map Ticket.job ++ es.filterMap WorkshopEvent.job? := by
  induction es generalizing w with
  | nil =>
    cases replayed
    exact (List.append_nil _).symm
  | cons e es ih =>
    obtain ⟨next, moved, rest⟩ := Option.bind_eq_some_iff.1 replayed
    have effect := effect_of_step? moved
    rw [ih (budget_of_effect h custody effect) (custody_of_effect custody effect) rest,
      roots_of_effect h custody effect, List.append_assoc, List.filterMap_cons]
    cases e.job? <;> rfl

/-- A follow-up is brought when its job is settled, and by then all entries have had their turn. -/
theorem follow_up_of_effect (custody : w.Custody capacity) (effect : Effect r w e v) {next : Ticket}
    (mem : next ∈ v.desk.issued) (new : next ∉ w.desk.issued) (follows : next.root ≠ next.number) :
    ∃ t outcome start, w.phase = .settling t outcome start ∧ r.Retries t.job outcome ∧
      next.job = t.job.followUp outcome.failedIds (r.timeOfDay w.bench.now) ∧
      w.log = w.executed.flatMap WorkerNote.pass ++ [.took t, .passed t] := by
  cases effect with
  | outside change =>
    rw [change.issued] at mem
    rcases List.mem_append.1 mem with old | mem
    · exact absurd old new
    · have isRoot := brings_root w.desk e next mem
      exact absurd (isRoot.2.2.trans isRoot.2.1.symm) follows
  | take _ took =>
    rw [(Desk.issued_take? took).1] at mem
    exact absurd mem new
  | sync _ desk => exact absurd (desk ▸ mem) new
  | syncNothing _ desk => exact absurd (desk ▸ mem) new
  | @settle _ t outcome start busy desk =>
    split at desk
    · next retries =>
      have log := custody.shaped.log
      rw [busy] at log
      rw [desk, (w.desk.change_submit _ _).issued] at mem
      rcases List.mem_append.1 mem with old | mem
      · exact absurd old new
      · rw [List.mem_singleton.1 mem]
        exact ⟨t, outcome, start, busy, retries, rfl, log⟩
    · exact absurd (desk ▸ mem) new
  | record _ desk => exact absurd (desk ▸ mem) new
  | stop _ _ desk => exact absurd (desk ▸ mem) new

/-- Every job goes back to a root, and of each root there are only so many. -/
theorem length_le_potentials (r : Runner τ) {roots ts : List Ticket}
    (rooted : ∀ t ∈ ts, ∃ root ∈ roots, root.number = t.root)
    (few : ∀ root ∈ roots, (ofRoot root.number ts).length ≤ r.potential root.job) :
    ts.length ≤ r.potentials (roots.map Ticket.job) := by
  induction roots generalizing ts with
  | nil =>
    cases ts with
    | nil => exact Nat.zero_le _
    | cons t ts =>
      obtain ⟨_, none, _⟩ := rooted t (List.mem_cons_self ..)
      cases none
  | cons root roots ih =>
    have here := few root (List.mem_cons_self ..)
    have others : (ts.filter (¬ ·.root = root.number)).length ≤
        r.potentials (roots.map Ticket.job) := by
      refine ih (fun t mem => ?_) (fun o mem => ?_)
      · obtain ⟨mem, other⟩ := List.mem_filter.1 mem
        obtain ⟨o, isRoot, same⟩ := rooted t mem
        rcases List.mem_cons.1 isRoot with rfl | isRoot
        · exact absurd same.symm (of_decide_eq_true other)
        · exact ⟨o, isRoot, same⟩
      · refine Nat.le_trans ?_ (few o (List.mem_cons_of_mem _ mem))
        exact (List.filter_sublist.filter _).length_le
    have all := List.length_eq_length_filter_add (l := ts) fun t => decide (t.root = root.number)
    rw [List.map_cons, Runner.potentials_cons]
    simp only [ofRoot, decide_not] at *
    omega

/-- The worker runs no more jobs than may come of those that others bring. -/
theorem executed_le_potentials {work : τ} (h : (start capacity work).replay? r es = some w) :
    w.bench.executed ≤ r.potentials (es.filterMap WorkshopEvent.job?) := by
  obtain ⟨custody, budget⟩ := budget_replay? h
  have brought : w.desk.roots.map Ticket.job = es.filterMap WorkshopEvent.job? :=
    roots_replay? (budget_start r capacity work) (custody_start capacity work) h
  rw [custody.shaped.counted, ← brought]
  refine length_le_potentials r (fun t mem => budget.rooted t ?_) fun root mem =>
    (budget.lineage root mem).length_le
  exact custody.keeps.issued_of_located (List.mem_append_right _ mem)

end Workshop

open Workshop in
/-- Whatever happens in a workshop, the worker runs no more jobs than may come of those that others
bring, and none of a later generation than is allowed, unless its root was of one already. The
generations of a root are run in turn. One job is run at a time, from taking it to noting it; while
it is not settled, no other one of its root is on its way. A follow-up comes of settling a job, when
all entries of that job have had their turn. -/
theorem retry_budget {τ : Type} (r : Runner τ) (capacity : Nat) (work : τ)
    (es : List (WorkshopEvent τ)) (w : Workshop τ)
    (h : (start capacity work).replay? r es = some w) :
    let roots := w.desk.roots
    roots.map Ticket.job = es.filterMap WorkshopEvent.job? ∧
      w.bench.executed ≤ r.potentials (es.filterMap WorkshopEvent.job?) ∧
      (∀ t ∈ w.taken, ∃ root ∈ roots, root.number = t.root ∧
        t.job.retryCount ≤ max r.maxRetryCycles root.job.retryCount) ∧
      (∀ root ∈ roots, (ofRoot root.number w.taken).map (·.job.retryCount) =
        List.range' root.job.retryCount (ofRoot root.number w.taken).length) ∧
      w.phase.inHand.length ≤ 1 ∧
      w.log = w.executed.flatMap WorkerNote.pass ++ w.phase.begun ∧
      (∀ t ∈ w.phase.unsettled, ∀ u ∈ w.desk.pending, u.root ≠ t.root) ∧
      ∀ e v, w.step? r e = some v → ∀ next ∈ v.desk.issued, next ∉ w.desk.issued →
        next.root ≠ next.number →
        ∃ t outcome start, w.phase = .settling t outcome start ∧ r.Retries t.job outcome ∧
          next.job = t.job.followUp outcome.failedIds (r.timeOfDay w.bench.now) ∧
          w.log = w.executed.flatMap WorkerNote.pass ++ [.took t, .passed t] := by
  intro roots
  obtain ⟨custody, budget⟩ := budget_replay? h
  have brought : roots.map Ticket.job = es.filterMap WorkshopEvent.job? :=
    roots_replay? (budget_start r capacity work) (custody_start capacity work) h
  have issued {t : Ticket} (mem : t ∈ w.taken) : t ∈ w.desk.issued :=
    custody.keeps.issued_of_located (List.mem_append_right _ mem)
  refine ⟨brought, executed_le_potentials h, fun t mem => ?_,
    fun root mem => (budget.lineage root mem).inTurn, ?_, custody.shaped.log,
    fun t mem u waits same => ?_, fun e v moved next mem new follows => ?_⟩
  · obtain ⟨root, isRoot, same⟩ := budget.rooted t (issued mem)
    refine ⟨root, isRoot, same, (budget.lineage root isRoot).bounded t ?_⟩
    exact List.mem_append_left _ (mem_ofRoot.2 ⟨mem, same.symm⟩)
  · cases w.phase with
    | idle | stopped => exact Nat.zero_le 1
    | syncing | settling | recording => exact Nat.le_refl 1
  · obtain ⟨root, isRoot, origin⟩ :=
      budget.rooted t (issued (custody.shaped.mem_taken_of_unsettled mem))
    have busy : ofRoot root.number w.phase.unsettled ≠ [] :=
      List.ne_nil_of_mem (mem_ofRoot.2 ⟨mem, origin.symm⟩)
    have alone := (budget.lineage root isRoot).alone busy
    exact List.ne_nil_of_mem (mem_ofRoot.2 ⟨waits, same.trans origin.symm⟩) alone
  · exact follow_up_of_effect custody (effect_of_step? moved) mem new follows

/-- Entry 9 breaks down at every sync. Of a job of generation 1 two more may come, of one of
generation 5 none. -/
theorem retry_budget_used_up :
    let r : Runner Unit := {
      syncer := {
        sync := fun _ _ work => (⟨5, .brokeDown⟩, work)
        directory := fun _ => .ok [] }
      maxRetryCycles := 3
      concurrency := 1
      concurrency_pos := by decide
      timeOfDay := fun _ => .epoch
      workflowName := fun _ => "" }
    let job (generation : Nat) : Job :=
      { Job.first (some [9]) .manual .epoch with retryCount := generation }
    let run : List (WorkshopEvent Unit) := [.take, .sync, .settle, .record]
    let events : List (WorkshopEvent Unit) :=
      [.send (job 1), .submit (job 5), .take, .ask 0, .sync, .settle, .record] ++ run ++ [.ask 0] ++
        run ++ run
    ∃ w, (Workshop.start 1 ()).replay? r events = some w ∧
      w.taken.map (·.job.retryCount) = [1, 5, 2, 3] ∧ w.bench.executed = 4 ∧
      r.potentials (events.filterMap WorkshopEvent.job?) = 4 ∧
      w.bench.executed ≤ r.potentials (events.filterMap WorkshopEvent.job?) ∧
      w.log = w.executed.flatMap WorkerNote.pass ++ w.phase.begun := by
  intro r job run events
  have facts : ((Workshop.start 1 ()).replay? r events).map (fun w =>
      (w.taken.map (·.job.retryCount), w.bench.executed)) = some ([1, 5, 2, 3], 4) := by
    decide +kernel
  obtain ⟨w, replayed, same⟩ := Option.map_eq_some_iff.1 facts
  simp only [Prod.mk.injEq] at same
  obtain ⟨-, few, -, -, -, log, -⟩ := retry_budget r 1 () events w replayed
  exact ⟨w, replayed, same.1, same.2, by decide +kernel, few, log⟩

end LeagueSync
