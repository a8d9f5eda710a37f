import LeagueSync.Batch.Job
import LeagueSync.Proofs.TimestampText
import LeagueSync.Records.Gameweek
import LeagueSync.Records.Run

/-!
# LeagueSync.Proofs.ShownRecords

Records with the instants that are written of theirs. A record comes back from a text with these in
place of its own, so it comes back as it was exactly if a clock shows all its instants.

* `Entry.shown_eq_self_iff`, `Gameweek.shown_eq_self_iff`, `Run.shown_eq_self_iff`,
  `Job.shown_eq_self_iff`: which records are those that are written of them.
-/

namespace LeagueSync

namespace Entry

/-- The entry that is written of one. -/
def shown (e : Entry) : Entry :=
  { e with updatedAt := e.updatedAt.shown }

/-- Whether a clock shows the time of the entry. -/
def OnClock (e : Entry) : Prop :=
  e.updatedAt.OnClock

instance (e : Entry) : Decidable e.OnClock :=
  inferInstanceAs (Decidable e.updatedAt.OnClock)

theorem shown_eq_self_iff (e : Entry) : e.shown = e ↔ e.OnClock := by
  rw [OnClock, ← Timestamp.shown_eq_self_iff]
  exact ⟨fun same => congrArg updatedAt same, fun same => by rw [shown, same]⟩

theorem OnClock.shown {e : Entry} (onClock : e.OnClock) : e.shown = e :=
  e.shown_eq_self_iff.2 onClock

end Entry

namespace Gameweek

/-- The gameweek that is written of one. -/
def shown (g : Gameweek) : Gameweek :=
  { g with deadline := g.deadline.map Timestamp.shown }

/-- Whether a clock shows the deadline, if there is one. -/
def OnClock (g : Gameweek) : Prop :=
  ∀ t ∈ g.deadline, t.OnClock

instance (g : Gameweek) : Decidable g.OnClock :=
  inferInstanceAs (Decidable (∀ t ∈ g.deadline, t.OnClock))

theorem shown_eq_self_iff (g : Gameweek) : g.shown = g ↔ g.OnClock := by
  obtain ⟨id, name, deadline, current, next, finished⟩ := g
  cases deadline with
  | none => simp [shown, OnClock]
  | some t => simp [shown, OnClock, Timestamp.shown_eq_self_iff]

theorem OnClock.shown {g : Gameweek} (onClock : g.OnClock) : g.shown = g :=
  g.shown_eq_self_iff.2 onClock

end Gameweek

namespace Run

/-- The run that is written of one. -/
def shown (r : Run) : Run :=
  { r with startedAt := r.startedAt.shown, finishedAt := r.finishedAt.shown }

/-- Whether a clock shows both times of the run. -/
def OnClock (r : Run) : Prop :=
  r.startedAt.OnClock ∧ r.finishedAt.OnClock

instance (r : Run) : Decidable r.OnClock :=
  inferInstanceAs (Decidable (_ ∧ _))

theorem shown_eq_self_iff (r : Run) : r.shown = r ↔ r.OnClock := by
  rw [OnClock, ← Timestamp.shown_eq_self_iff, ← Timestamp.shown_eq_self_iff]
  exact ⟨fun same => ⟨congrArg startedAt same, congrArg finishedAt same⟩,
    fun ⟨started, finished⟩ => by rw [shown, started, finished]⟩

end Run

namespace Job

/-- The job that is written of one. -/
def shown (j : Job) : Job :=
  { j with triggeredAt := j.triggeredAt.shown }

/-- Whether a clock shows the time of the job. -/
def OnClock (j : Job) : Prop :=
  j.triggeredAt.OnClock

instance (j : Job) : Decidable j.OnClock :=
  inferInstanceAs (Decidable j.triggeredAt.OnClock)

theorem shown_eq_self_iff (j : Job) : j.shown = j ↔ j.OnClock := by
  rw [OnClock, ← Timestamp.shown_eq_self_iff]
  exact ⟨fun same => congrArg triggeredAt same, fun same => by rw [shown, same]⟩

end Job
end LeagueSync
