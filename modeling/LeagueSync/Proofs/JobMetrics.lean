import LeagueSync.Proofs.QueueAnswers
import Mathlib.Algebra.GroupWithZero.Nat

/-!
# LeagueSync.Proofs.JobMetrics

What is counted of jobs. A `JobReport` has the outcome of a job, what the sink was offered as a
follow-up, and what the sink answered. Between two jobs others may do anything with the work and the
sink, so the directory, the syncs, the sink and the history may fail at one call and not at the
next. The counters agree with the reports all the same.

* `Runner.runAll_eq_reports`: reporting changes nothing.
* `Runner.Offers`: a job offers the sink its follow-up, or nothing.
* `Runner.counts_report`: what one job adds to the counters.
* `Runner.metrics_agree`: the counters after any number of jobs.
-/

namespace LeagueSync

variable {τ κ : Type}

/-! ## Reports -/

/-- A job that a sink was offered, and its answer. -/
structure Offer where
  job : Job
  answer : Except SyncError Unit

/-- Whether a job of this retry generation was offered and taken. -/
def Offer.isTaken (n : Nat) (o : Offer) : Bool :=
  o.answer.isOk && n == o.job.retryCount

/-- A sink and what it was offered. -/
structure Offered (κ : Type) where
  sink : κ
  offers : List Offer := []

instance [Sink κ] : Sink (Offered κ) where
  submit job q :=
    let (answer, sink) := Sink.submit job q.sink
    (answer, ⟨sink, q.offers ++ [⟨job, answer⟩]⟩)

/-- The bench with a sink that was offered nothing yet. -/
def Bench.offering (b : Bench τ κ) : Bench τ (Offered κ) :=
  b.over ⟨b.queue, []⟩

theorem Offered.alike [Sink κ] : Runner.Alike fun (q : κ) (o : Offered κ) => o.sink = q := by
  rintro job q o rfl
  exact ⟨rfl, rfl⟩

/-- A job that was run, its outcome, and what the sink was offered meanwhile. -/
structure JobReport where
  job : Job
  outcome : Outcome
  offers : List Offer

/-- A job, and what others make of the time, the work and the sink before it is run. -/
structure Turn (τ κ : Type) where
  job : Job
  before : Nat × τ × κ → Nat × τ × κ := id

/-- What a job is run on. -/
def Turn.bench (t : Turn τ κ) (b : Bench τ κ) : Bench τ κ :=
  let (now, work, queue) := t.before (b.now, b.work, b.queue)
  { b with now, work, queue }

namespace Runner

variable [Sink κ] (r : Runner τ)

def runAll : List (Turn τ κ) → Bench τ κ → List Outcome × Bench τ κ
  | [], b => ([], b)
  | t :: turns, b =>
    let (outcome, b) := r.run t.job (t.bench b)
    let (outcomes, b) := runAll turns b
    (outcome :: outcomes, b)

def report (job : Job) (b : Bench τ κ) : JobReport × Bench τ κ :=
  let (outcome, b) := r.run job b.offering
  (⟨job, outcome, b.queue.offers⟩, b.over b.queue.sink)

def reportAll : List (Turn τ κ) → Bench τ κ → List JobReport × Bench τ κ
  | [], b => ([], b)
  | t :: turns, b =>
    let (report, b) := r.report t.job (t.bench b)
    let (reports, b) := reportAll turns b
    (report :: reports, b)

theorem report_eq (job : Job) (b : Bench τ κ) :
    r.run job b = ((r.report job b).1.outcome, (r.report job b).2) := by
  obtain ⟨o, sink, ran⟩ :=
    run_over (r := r) Offered.alike job (b := b) (q := ⟨b.queue, []⟩) rfl
  rw [report, Bench.offering, ran]
  show _ = ((r.run job b).1, (r.run job b).2.over o.sink)
  rw [sink]
  rfl

/-- Reporting changes nothing. -/
theorem runAll_eq_reports (turns : List (Turn τ κ)) (b : Bench τ κ) :
    r.runAll turns b = ((r.reportAll turns b).1.map JobReport.outcome, (r.reportAll turns b).2) := by
  induction turns generalizing b with
  | nil => rfl
  | cons t turns ih =>
    simp only [runAll, reportAll, r.report_eq, ih, List.map_cons]

theorem jobs_reportAll (turns : List (Turn τ κ)) (b : Bench τ κ) :
    (r.reportAll turns b).1.map JobReport.job = turns.map Turn.job := by
  induction turns generalizing b with
  | nil => rfl
  | cons t turns ih =>
    simp only [reportAll, List.map_cons, ih]
    rfl

/-! ## The counters -/

/-- What the sink is offered for a job with this outcome: the follow-up over what failed, once, or
nothing. -/
inductive Offers (r : Runner τ) (job : Job) (outcome : Outcome) : List Offer → Prop
  | nothing : ¬ r.Retries job outcome → r.Offers job outcome []
  | followUp : r.Retries job outcome → ∀ (time : Timestamp) (answer : Except SyncError Unit),
    r.Offers job outcome [⟨job.followUp outcome.failedIds time, answer⟩]

/-- What settling a job adds to the offers and to the counters. -/
theorem settle_offering (job : Job) (outcome : Outcome) (b : Bench τ (Offered κ)) :
    ∃ offers, r.Offers job outcome offers ∧
      (r.settle job outcome b).2.queue.offers = b.queue.offers ++ offers ∧
      (r.settle job outcome b).2.metrics.entries = b.metrics.entries ∧
      ∀ n, (r.settle job outcome b).2.metrics.retryJobs.total n =
        b.metrics.retryJobs.total n + offers.countP (Offer.isTaken n) := by
  by_cases retries : r.Retries job outcome
  · rw [settle_of_retries retries]
    simp only [Sink.submit]
    generalize Sink.submit (job.followUp outcome.failedIds (r.timeOfDay b.now)) b.queue.sink = reply
    obtain ⟨answer, sink⟩ := reply
    refine ⟨_, .followUp retries (r.timeOfDay b.now) answer, ?_⟩
    cases answer with
    | ok u =>
      refine ⟨rfl, rfl, fun n => ?_⟩
      show (b.metrics.retryJobs.count (job.retryCount + 1) 1).total n = _
      rw [Table.total_count, List.countP_singleton]
      simp [Offer.isTaken, Except.isOk, Except.toBool]
    | error e => exact ⟨rfl, rfl, fun n => rfl⟩
  · rw [settle_of_not_retries retries]
    exact ⟨[], .nothing retries, (List.append_nil _).symm, rfl, fun _ => rfl⟩

/-- The entries of an outcome that succeeded, or those that failed. -/
def entriesOf (succeeded : Bool) (o : Outcome) : Nat :=
  if succeeded then o.succeeded else o.failed

omit [Sink κ] in
theorem metrics_record (job : Job) (outcome : Outcome) (start : Nat) (b : Bench τ κ) :
    (r.record job outcome start b).metrics = b.metrics.addJob job.source.name outcome.succeeded
      outcome.failed (secondsOf ((b.now - start) * 1000000)) := by
  unfold record
  cases r.history <;> rfl

theorem total_addJob (m : Metrics) (job : Job) (outcome : Outcome) (duration : Double)
    (source : Trigger) (succeeded : Bool) :
    (m.addJob job.source.name outcome.succeeded outcome.failed duration).entries.total
        ⟨source.name, succeeded⟩ =
      m.entries.total ⟨source.name, succeeded⟩ +
        if job.source = source then entriesOf succeeded outcome else 0 := by
  simp only [Metrics.addJob, Table.total_count, EntryLabels.mk.injEq, Trigger.name_inj]
  cases succeeded <;> simp [entriesOf, eq_comm]

/-- What the counters grew by between two moments is what these reports say. -/
structure Counts (before after : Metrics) (reports : List JobReport) : Prop where
  offers : ∀ report ∈ reports, r.Offers report.job report.outcome report.offers
  entries : ∀ (source : Trigger) (succeeded : Bool),
    after.entries.total ⟨source.name, succeeded⟩ = before.entries.total ⟨source.name, succeeded⟩ +
      ((reports.filter (·.job.source = source)).map (entriesOf succeeded ·.outcome)).sum
  retryJobs : ∀ n, after.retryJobs.total n = before.retryJobs.total n +
    (reports.flatMap JobReport.offers).countP (Offer.isTaken n)

omit [Sink κ] in
theorem Counts.append {r : Runner τ} {before between after : Metrics} {xs ys : List JobReport}
    (first : r.Counts before between xs) (second : r.Counts between after ys) :
    r.Counts before after (xs ++ ys) where
  offers := List.forall_mem_append.2 ⟨first.offers, second.offers⟩
  entries source succeeded := by
    rw [second.entries, first.entries, List.filter_append, List.map_append, List.sum_append,
      Nat.add_assoc]
  retryJobs n := by
    rw [second.retryJobs, first.retryJobs, List.flatMap_append, List.countP_append, Nat.add_assoc]

omit [Sink κ] in
theorem Counts.of_job {r : Runner τ} {before after : Metrics} {report : JobReport}
    (offers : r.Offers report.job report.outcome report.offers)
    (entries : ∀ (source : Trigger) (succeeded : Bool),
      after.entries.total ⟨source.name, succeeded⟩ = before.entries.total ⟨source.name, succeeded⟩ +
        if report.job.source = source then entriesOf succeeded report.outcome else 0)
    (retryJobs : ∀ n, after.retryJobs.total n =
      before.retryJobs.total n + report.offers.countP (Offer.isTaken n)) :
    r.Counts before after [report] where
  offers := List.forall_mem_singleton.2 offers
  entries source succeeded := by
    rw [entries]
    by_cases own : report.job.source = source <;> simp [own]
  retryJobs n := by rw [retryJobs, List.flatMap_singleton]

theorem counts_runOn (job : Job) (ids : List EntryId) (b : Bench τ (Offered κ))
    (fresh : b.queue.offers = []) :
    let ran := r.runOn job ids b
    r.Counts b.metrics ran.2.metrics [⟨job, ran.1, ran.2.queue.offers⟩] := by
  unfold runOn
  generalize r.syncAll (job.units ids) b.now b.work = batch
  obtain ⟨results, now, work⟩ := batch
  obtain ⟨offers, offered, queue, entries, retryJobs⟩ :=
    r.settle_offering job (Outcome.ofResults results) { b with now, work }
  rw [fresh, List.nil_append] at queue
  -- The entries are counted before the history is written, whose failure goes uncounted.
  simp only [queue_record, metrics_record, queue]
  refine .of_job offered (fun source succeeded => ?_) retryJobs
  rw [total_addJob, entries]

/-- What one job adds to the counters, whatever fails. -/
theorem counts_report (job : Job) (b : Bench τ κ) :
    r.Counts b.metrics (r.report job b).2.metrics [(r.report job b).1] := by
  cases resolved : r.targets? job b.work with
  | none =>
    have same : r.report job b = (⟨job, .empty, []⟩, { b with executed := b.executed + 1 }) := by
      rw [report, run_of_none (b := b.offering) resolved]
      rfl
    rw [same]
    -- Nothing is counted, and an empty outcome has nothing that could have been.
    refine .of_job (.nothing fun retries => retries.1 rfl) (fun source succeeded => ?_) fun n => rfl
    cases succeeded <;> simp [entriesOf, Outcome.empty]
  | some ids =>
    rw [report, run_of_some (b := b.offering) resolved]
    exact r.counts_runOn job ids { b.offering with executed := b.executed + 1 } rfl

theorem counts_reportAll (turns : List (Turn τ κ)) (b : Bench τ κ) :
    r.Counts b.metrics (r.reportAll turns b).2.metrics (r.reportAll turns b).1 := by
  induction turns generalizing b with
  | nil => exact ⟨List.forall_mem_nil _, fun _ _ => rfl, fun _ => rfl⟩
  | cons t turns ih => exact (r.counts_report t.job (t.bench b)).append (ih _)

/-! ## Follow-ups -/

/-- Whether some entries of a job failed, generations were left, the next of them is this one, and
the sink took the follow-up. -/
def FollowedBy (n : Nat) (report : JobReport) : Prop :=
  report.outcome.failedIds ≠ [] ∧ report.job.retryCount + 1 = n ∧
    report.job.retryCount < r.maxRetryCycles ∧ ∃ offer ∈ report.offers, offer.answer.isOk

instance (n : Nat) (report : JobReport) : Decidable (r.FollowedBy n report) :=
  inferInstanceAs (Decidable (_ ∧ _))

omit [Sink κ] in
/-- Of what a job offers one is counted for a generation at most, and one if the job is followed by
that generation. -/
theorem Offers.countP_isTaken {r : Runner τ} {job : Job} {outcome : Outcome} {offers : List Offer}
    (offered : r.Offers job outcome offers) (n : Nat) :
    offers.countP (Offer.isTaken n) =
      if r.FollowedBy n ⟨job, outcome, offers⟩ then 1 else 0 := by
  cases offered with
  | nothing done =>
    have alone : ¬ r.FollowedBy n ⟨job, outcome, []⟩ :=
      fun followed => done ⟨followed.1, followed.2.2.1⟩
    rw [if_neg alone, List.countP_nil]
  | followUp retries time answer =>
    have followed : r.FollowedBy n ⟨job, outcome, [⟨job.followUp outcome.failedIds time, answer⟩]⟩ ↔
        Offer.isTaken n ⟨job.followUp outcome.failedIds time, answer⟩ := by
      simp [FollowedBy, Offer.isTaken, retries.1, retries.2, and_comm, @eq_comm Nat n]
    rw [List.countP_singleton]
    simp only [followed]

omit [Sink κ] in
theorem countP_isTaken {reports : List JobReport}
    (offered : ∀ report ∈ reports, r.Offers report.job report.outcome report.offers) (n : Nat) :
    (reports.flatMap JobReport.offers).countP (Offer.isTaken n) =
      reports.countP fun report => r.FollowedBy n report := by
  induction reports with
  | nil => rfl
  | cons report reports ih =>
    obtain ⟨first, rest⟩ := List.forall_mem_cons.1 offered
    rw [List.flatMap_cons, List.countP_append, List.countP_cons, first.countP_isTaken n, ih rest,
      Nat.add_comm]
    simp only [decide_eq_true_eq]

/-- What is counted of any jobs, whatever their directory, their syncs, the sink and the history do
at each call. For each source the entries that succeeded and those that failed are those of the
outcomes that the callers got, and for each retry generation the follow-ups are those that the sink
took: one for each job of the generation before that left failed entries, as long as generations
were left, unless the sink refused it. -/
theorem metrics_agree (r : Runner τ) (turns : List (Turn τ κ)) (b : Bench τ κ)
    (noEntries : ∀ labels, b.metrics.entries.total labels = 0)
    (noRetries : ∀ n, b.metrics.retryJobs.total n = 0) :
    let (reports, after) := r.reportAll turns b
    r.runAll turns b = (reports.map JobReport.outcome, after) ∧
      reports.map JobReport.job = turns.map Turn.job ∧
      (∀ report ∈ reports, r.Offers report.job report.outcome report.offers) ∧
      (∀ source : Trigger,
        let own := (reports.filter (·.job.source = source)).map JobReport.outcome
        after.metrics.entries.total ⟨source.name, true⟩ = (own.map Outcome.succeeded).sum ∧
          after.metrics.entries.total ⟨source.name, false⟩ = (own.map Outcome.failed).sum) ∧
      ∀ n,
        after.metrics.retryJobs.total n =
            (reports.flatMap JobReport.offers).countP (Offer.isTaken n) ∧
          (reports.flatMap JobReport.offers).countP (Offer.isTaken n) =
            reports.countP fun report => r.FollowedBy n report := by
  have counts := r.counts_reportAll turns b
  refine ⟨r.runAll_eq_reports turns b, r.jobs_reportAll turns b, counts.offers, fun source => ?_,
    fun n => ⟨?_, r.countP_isTaken counts.offers n⟩⟩
  · have entries (succeeded : Bool) := counts.entries source succeeded
    simp only [noEntries, Nat.zero_add] at entries
    simp only [List.map_map]
    exact ⟨entries true, entries false⟩
  · rw [counts.retryJobs, noRetries, Nat.zero_add]

/-- Five jobs over two entries, one of which always fails. The second job finds no directory, the
third is of the last generation, and the fourth finds the sink closed. -/
theorem metrics_agree_mixed :
    let r : Runner Bool := {
      syncer := {
        sync := fun _ unit listed =>
          (⟨5, if unit.1 = 9 then .brokeDown else .returned (.ok ())⟩, listed)
        directory := fun listed => if listed then .ok [8, 9] else .error .queueClosed }
      history := some fun _ listed => (.error .missing, listed)
      maxRetryCycles := 1
      concurrency := 2
      concurrency_pos := by decide
      timeOfDay := fun _ => .epoch
      workflowName := fun _ => "" }
    let all (source : Trigger) (retryCount : Nat) : Job := ⟨none, source, retryCount, none, .epoch⟩
    let turns : List (Turn Bool InlineQueue) := [
      { job := all .cron 0 },
      { job := all .cron 0, before := fun (now, _, queue) => (now, false, queue) },
      { job := all .retry 1, before := fun (now, _, queue) => (now, true, queue) },
      { job := all .manual 0, before := fun (now, listed, queue) =>
        (now, listed, { queue with isClosed := true }) },
      { job := all .cron 0, before := fun (now, listed, queue) =>
        (now, listed, { queue with isClosed := false }) }]
    let b : Bench Bool InlineQueue := { work := true, queue := {} }
    let outcomes := (r.runAll turns b).1
    let after := (r.runAll turns b).2.metrics
    (∀ labels, b.metrics.entries.total labels = 0) ∧ (∀ n, b.metrics.retryJobs.total n = 0) ∧
      outcomes = [⟨2, 1, 1, [9]⟩, .empty, ⟨2, 1, 1, [9]⟩, ⟨2, 1, 1, [9]⟩, ⟨2, 1, 1, [9]⟩] ∧
      after.entries.total ⟨"cron", true⟩ = 2 ∧ after.entries.total ⟨"manual", false⟩ = 1 ∧
      after.retryJobs.total 1 = 2 ∧ after.retryJobs.total 2 = 0 := by
  intro r all turns b outcomes after
  obtain ⟨same, -, -, entries, retryJobs⟩ := r.metrics_agree turns b (fun _ => rfl) fun _ => rfl
  have ran : outcomes = [⟨2, 1, 1, [9]⟩, .empty, ⟨2, 1, 1, [9]⟩, ⟨2, 1, 1, [9]⟩, ⟨2, 1, 1, [9]⟩] := by
    decide +kernel
  have cron : ((((r.reportAll turns b).1.filter (·.job.source = .cron)).map JobReport.outcome).map
      Outcome.succeeded).sum = 2 := by decide +kernel
  have manual : ((((r.reportAll turns b).1.filter (·.job.source = .manual)).map
      JobReport.outcome).map Outcome.failed).sum = 1 := by decide +kernel
  have followed : ((r.reportAll turns b).1.countP fun report => r.FollowedBy 1 report) = 2 := by
    decide +kernel
  have last : ((r.reportAll turns b).1.countP fun report => r.FollowedBy 2 report) = 0 := by
    decide +kernel
  have metrics : after = (r.reportAll turns b).2.metrics := congrArg (·.2.metrics) same
  rw [metrics]
  exact ⟨fun _ => rfl, fun _ => rfl, ran, (entries .cron).1.trans cron,
    (entries .manual).2.trans manual, (retryJobs 1).1.trans ((retryJobs 1).2.trans followed),
    (retryJobs 2).1.trans ((retryJobs 2).2.trans last)⟩

end Runner
end LeagueSync
