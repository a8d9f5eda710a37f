import LeagueSync.Proofs.SharedLimiter

/-!
# LeagueSync.Proofs.CrowdSchedule

A crowd that runs by itself always moves the call whose time comes first. That is one of the ways in
which a fleet of one client may go on, so what holds in all runs of a fleet holds for the crowd.

* `Crowd.exists_of_nextUp?`: the call that is next waits for the time at which it is next.
* `Fleet.replay?_of_step?`, `Fleet.replay?_run`: a step and a run of a crowd are runs of a fleet.
* `Client.requestAll_replayed`: so are calls made at the same time, from first to last.
-/

namespace LeagueSync

namespace Crowd

/-- Who keeps the better of two ends with one of all. -/
theorem mem_of_foldl {α : Type} {better : Option α → α → Option α}
    (either : ∀ best a b, better best a = some b → b = a ∨ best = some b) {as : List α}
    {best : Option α} {b : α} (h : as.foldl better best = some b) : b ∈ as ∨ best = some b := by
  induction as generalizing best with
  | nil => exact .inr h
  | cons a as ih =>
    rcases ih h with mem | kept
    · exact .inl (List.mem_cons_of_mem _ mem)
    · rcases either best a b kept with rfl | before
      · exact .inl (List.mem_cons_self ..)
      · exact .inr before

theorem exists_of_nextUp? {w : Crowd} {time i : Nat} (h : w.nextUp? = some (time, i)) :
    ∃ t, w.tasks[i]? = some t ∧ t.stage.time? = some time := by
  have mem := mem_of_foldl (fun best a b kept => by
    cases best with
    | none => exact .inl (Option.some.inj kept).symm
    | some best =>
      dsimp only at kept
      split at kept
      · exact .inl (Option.some.inj kept).symm
      · exact .inr kept) h
  rcases mem with mem | none
  · obtain ⟨⟨t, j⟩, here, timed⟩ := List.mem_filterMap.1 mem
    obtain ⟨due, waits, same⟩ := Option.map_eq_some_iff.1 timed
    cases same
    refine ⟨t, ?_, waits⟩
    rw [← Array.getElem?_toList]
    exact List.mem_zipIdx_iff_getElem?.1 here
  · cases none

def atTime (w : Crowd) (time : Nat) : Crowd :=
  { w with link := { w.link with now := max w.link.now time } }

theorem step?_eq_some {c : Client} {env : Surroundings} {w v : Crowd}
    (h : w.step? c env = some v) :
    ∃ i t time, w.tasks[i]? = some t ∧ t.stage.time? = some time ∧
      v = (w.atTime time).move c env i t := by
  obtain ⟨⟨time, i⟩, next, h⟩ := Option.bind_eq_some_iff.1 h
  obtain ⟨t, found, same⟩ := Option.bind_eq_some_iff.1 h
  obtain ⟨u, here, waits⟩ := exists_of_nextUp? next
  cases found.symm.trans here
  exact ⟨i, t, time, found, waits, (Option.some.inj same).symm⟩

theorem now_move (c : Client) (env : Surroundings) (w : Crowd) (i : Nat) (t : Task) :
    (w.move c env i t).link.now = w.link.now := by
  unfold move
  cases t.stage with
  | asking attempt time => cases w.free <;> rfl
  | holding attempt time =>
    dsimp only
    split
    · rfl
    · split
      · rw [link_finish]
      · rfl
  | sending attempt time duration result =>
    dsimp only
    rw [link_finish]
  | inLine | ended => rfl

end Crowd

namespace Fleet

/-- A fleet of one client that has this crowd. -/
def alone (c : Client) (env : Surroundings) (w : Crowd) (sends : List Nat) : Fleet where
  now := w.link.now
  bucket := w.link.bucket
  members := [⟨c, env, w⟩]
  sends

variable {c : Client} {env : Surroundings} {w v : Crowd}

theorem replay?_append {f g : Fleet} {es : List FleetEvent} (h : f.replay? es = some g)
    (fs : List FleetEvent) : f.replay? (es ++ fs) = g.replay? fs := by
  induction es generalizing f with
  | nil =>
    cases h
    rfl
  | cons e es ih =>
    obtain ⟨next, stepped, rest⟩ := Option.bind_eq_some_iff.1 h
    rw [List.cons_append, replay?, stepped, Option.bind_some, ih rest]

theorem replay?_of_step? (h : w.step? c env = some v) (sends : List Nat) :
    ∃ es more, (alone c env w sends).replay? es = some (alone c env v more) := by
  obtain ⟨i, t, time, found, waits, rfl⟩ := Crowd.step?_eq_some h
  let due := max w.link.now time
  have come : w.link.now + (due - w.link.now) = due := by omega
  have possible : due ≤ due ∧ t.stage.time?.any (· ≤ due) = true := by
    refine ⟨Nat.le_refl due, ?_⟩
    rw [waits]
    exact decide_eq_true (Nat.le_max_right ..)
  have now : ((w.atTime time).move c env i t).link.now = due := Crowd.now_move ..
  let moved : Member := ⟨c, env, (w.atTime time).move c env i t⟩
  refine ⟨[.pass (due - w.link.now), .move 0 i due],
    sends ++ List.replicate (moved.sent - w.link.sent) due, ?_⟩
  simp only [replay?, step?, alone, Option.bind_some, come, List.getElem?_cons_zero, found,
    if_pos possible, List.set_cons_zero, now]
  rfl

theorem replay?_run (c : Client) (env : Surroundings) (fuel : Nat) (w : Crowd) (sends : List Nat) :
    ∃ es more, (alone c env w sends).replay? es = some (alone c env (w.run c env fuel) more) := by
  induction fuel generalizing w sends with
  | zero => exact ⟨[], sends, rfl⟩
  | succ fuel ih =>
    cases stepped : w.step? c env with
    | none =>
      refine ⟨[], sends, ?_⟩
      rw [Crowd.run, stepped]
      rfl
    | some v =>
      obtain ⟨es, more, first⟩ := replay?_of_step? stepped sends
      obtain ⟨fs, last, later⟩ := ih v more
      refine ⟨es ++ fs, last, ?_⟩
      rw [replay?_append first, Crowd.run, stepped]
      exact later

theorem replay?_calls (c : Client) (env : Surroundings) (calls : List Call) (w : Crowd)
    (sends : List Nat) :
    (alone c env w sends).replay? (calls.map (.call 0)) =
      some (alone c env
        { w with tasks := w.tasks ++ (calls.map (c.enter w.link.now)).toArray } sends) := by
  induction calls generalizing w with
  | nil => simp [replay?]
  | cons call calls ih =>
    rw [List.map_cons, replay?]
    refine (ih { w with tasks := w.tasks.push (c.enter w.link.now call) }).trans ?_
    simp

end Fleet

/-- What a client makes of several calls at the same time, a fleet may make of them, too. -/
theorem Client.requestAll_replayed (cfg : RateLimitConfig) (start : Nat) (c : Client)
    (env : Surroundings) (calls : List Call) :
    ∃ es f crowd, (Fleet.start cfg start [(c, env)]).replay? es = some f ∧
      f.members = [⟨c, env, crowd⟩] ∧ c.requestAll env calls (.start cfg start) =
        (crowd.tasks.toList.map (·.stage.result?), crowd.link) := by
  let crowd : Crowd := ⟨.start cfg start, c.permits, [], #[]⟩
  have alone : Fleet.start cfg start [(c, env)] = Fleet.alone c env crowd [] := rfl
  have begun := Fleet.replay?_calls c env calls crowd []
  obtain ⟨es, sends, ran⟩ := Fleet.replay?_run c env (Crowd.moves c calls.length) { crowd with
    tasks := crowd.tasks ++ (calls.map (c.enter crowd.link.now)).toArray } []
  refine ⟨calls.map (.call 0) ++ es, _, _,
    alone ▸ (Fleet.replay?_append begun es).trans ran, rfl, ?_⟩
  have none : crowd.tasks ++ (calls.map (c.enter crowd.link.now)).toArray =
      (calls.map (c.enter crowd.link.now)).toArray := by simp [crowd]
  rw [none]
  rfl

end LeagueSync
