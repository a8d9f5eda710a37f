/-!
# LeagueSync.Time.Sleep

How long a sleep lasts. The timers reach thirty years ahead, and a longer sleep ends there; whoever
asked for it goes on as though it had passed.

* `sleepsFor_sub_slept`: each sleep brings whoever sleeps again and again one sleep nearer to
  the end.
-/

namespace LeagueSync

/-- The milliseconds of the longest sleep: thirty years of 365 days. -/
def longestSleep : Nat := 30 * 365 * 24 * 60 * 60 * 1000

/-- The milliseconds that a sleep lasts of which so many are asked for. -/
def slept (ms : Nat) : Nat :=
  min ms longestSleep

/-- How many sleeps it takes until so many milliseconds have passed. -/
def sleepsFor (ms : Nat) : Nat :=
  (ms + longestSleep - 1) / longestSleep

theorem longestSleep_eq : longestSleep = 946080000000 := rfl

theorem slept_pos {ms : Nat} (h : 0 < ms) : 0 < slept ms :=
  Nat.lt_min.2 ⟨h, by decide⟩

theorem sleepsFor_of_le {ms : Nat} (h : ms ≤ longestSleep) : sleepsFor ms ≤ 1 := by
  rw [longestSleep_eq] at h
  rw [sleepsFor, longestSleep_eq]
  omega

theorem sleepsFor_sub_slept {ms : Nat} (h : 0 < ms) :
    sleepsFor (ms - slept ms) + 1 = sleepsFor ms := by
  simp only [sleepsFor, slept, longestSleep_eq]
  omega

end LeagueSync
