import Mathlib.Tactic.IntervalCases
import LeagueSync.Gameweek.Season
import LeagueSync.Proofs.Digits

/-!
# LeagueSync.Proofs.SeasonNames

What the name of a season tells. Seasons that start less than a hundred years apart have different
names, also where the century changes and in years before the year 0, so a name stands for one
season among all that a cache or a database can hold at the same time.

* `Timestamp.seasonYear`: the season of an instant, told by whether the first of July has come.
* `firstPlaces_seasonName`: the two last digits of the start, and its sign, can be read off a name.
* `season_names_partition_time`: equal seasons, near seasons, and the form of a name.
-/

namespace LeagueSync

/-! ## Seasons of instants -/

def Date.firstOfJuly (d : Date) : Date :=
  { d with
    month := 7
    day := 1
    month_range := by decide
    day_range := ⟨Nat.le_refl 1, by simp [daysInMonth]⟩ }

theorem Date.firstOfJuly_le_iff (d : Date) :
    d.firstOfJuly.epochDay ≤ d.epochDay ↔ 7 ≤ d.month := by
  obtain ⟨year, month, day, -, ⟨first, last⟩, one, longest⟩ := d
  have short : month ≠ 2 ∨ day ≤ 29 := by
    rw [daysInMonth] at longest
    split at longest
    · split at longest <;> omega
    · omega
  simp only [firstOfJuly, epochDay]
  interval_cases month <;> simp [daysInMonth] at longest ⊢ <;> omega

/-- The year in which the season of an instant started: its own from the first of July on. -/
def Timestamp.seasonYear (t : Timestamp) : Int :=
  if t.date.firstOfJuly.epochDay * 86400 ≤ t.epochSecond then t.date.year else t.date.year - 1

theorem Timestamp.seasonYear_eq (t : Timestamp) : t.seasonYear = seasonStart t.date := by
  have sameDay : t.date.firstOfJuly.epochDay * 86400 ≤ t.epochSecond ↔ 7 ≤ t.date.month := by
    have := t.second_range
    rw [← t.date.firstOfJuly_le_iff, epochSecond]
    omega
  simp only [seasonYear, seasonStart, sameDay]

/-! ## Names -/

theorem tmod_hundred (n : Int) : n.tmod 100 = if 0 ≤ n then n % 100 else -(-n % 100) := by
  split
  · next h => exact Int.tmod_eq_emod_of_nonneg h
  · rw [← Int.tmod_eq_emod_of_nonneg (by omega), Int.neg_tmod, Int.neg_neg]

/-- The number in front of a name. A minus goes with all digits up to the next sign. -/
def firstPlaces (cs : List Char) : Int :=
  if cs.head? = some '-' then -(Text.digitsValue (cs.tail.takeWhile Text.isDigit) : Int)
  else Text.digitsValue (cs.take 2)

theorem head?_ne_minus {cs rest : List Char} (digits : ∀ c ∈ cs, Text.isDigit c = true)
    (some_digit : cs ≠ []) : (cs ++ rest).head? ≠ some '-' := by
  cases cs with
  | nil => exact absurd rfl some_digit
  | cons c cs =>
    intro minus
    cases minus
    exact absurd (digits _ List.mem_cons_self) (by decide)

theorem twoPlaces_of_nonneg {n : Int} (h : 0 ≤ n) : twoPlaces n = Text.padded 2 n.toNat :=
  if_pos h

theorem twoPlaces_of_neg {n : Int} (h : n < 0) : twoPlaces n = '-' :: Text.padded 1 n.natAbs :=
  if_neg (Int.not_le.2 h)

theorem length_twoPlaces {n : Int} (h : 0 ≤ n) (small : n < 100) : (twoPlaces n).length = 2 := by
  have below : n.toNat < 100 := by omega
  rw [twoPlaces_of_nonneg h]
  exact Text.length_padded (by decide) below

/-- After -1 comes 00, which can not be told from further digits of the first number. -/
theorem firstPlaces_seasonName (start : Int) :
    firstPlaces (seasonName start).toList =
      if start.tmod 100 = -1 then -100 else start.tmod 100 := by
  have here := tmod_hundred start
  have next := tmod_hundred (start + 1)
  have low : -100 < start.tmod 100 := by omega
  have high : start.tmod 100 < 100 := by omega
  rw [seasonName, String.toList_ofList]
  by_cases sign : 0 ≤ start.tmod 100
  · have short := length_twoPlaces sign high
    have early : start.tmod 100 ≠ -1 := by omega
    rw [if_neg early, firstPlaces, List.take_append_of_le_length (Nat.le_of_eq short.symm),
      List.take_of_length_le (Nat.le_of_eq short), twoPlaces_of_nonneg sign,
      if_neg (head?_ne_minus (fun _ => Text.isDigit_of_mem_padded) (Text.padded_ne_nil _ _)),
      Text.digitsValue_padded, Int.toNat_of_nonneg sign]
  · have negative : start.tmod 100 < 0 := Int.not_le.1 sign
    rw [twoPlaces_of_neg negative, List.cons_append, firstPlaces, List.head?_cons, if_pos rfl,
      List.tail_cons]
    by_cases last : start.tmod 100 = -1
    · have ends : (start + 1).tmod 100 = 0 := by omega
      rw [last, ends]
      decide
    · have signed : (start + 1).tmod 100 < 0 := by omega
      rw [if_neg last, twoPlaces_of_neg signed, Text.takeWhile_isDigit_append
        (fun _ => Text.isDigit_of_mem_padded) (Text.noDigit_cons (by decide)),
        Text.digitsValue_padded]
      omega

theorem dvd_of_seasonName_eq {s t : Int} (h : seasonName s = seasonName t) : 100 ∣ s - t := by
  have first := firstPlaces_seasonName s
  rw [h, firstPlaces_seasonName t] at first
  have same : s.tmod 100 = t.tmod 100 := by
    have := tmod_hundred s
    have := tmod_hundred t
    split at first <;> split at first <;> omega
  rw [tmod_hundred, tmod_hundred] at same
  split at same <;> split at same <;> omega

theorem seasonName_of_nonneg {s : Int} (h : 0 ≤ s) :
    (seasonName s).length = 4 ∧ ∀ c ∈ (seasonName s).toList, Text.isDigit c = true := by
  have first : 0 ≤ s.tmod 100 ∧ s.tmod 100 < 100 := by
    rw [tmod_hundred]
    omega
  have second : 0 ≤ (s + 1).tmod 100 ∧ (s + 1).tmod 100 < 100 := by
    rw [tmod_hundred]
    omega
  constructor
  · rw [seasonName, String.length_ofList, List.length_append, length_twoPlaces first.1 first.2,
      length_twoPlaces second.1 second.2]
  · intro c mem
    rw [seasonName, String.toList_ofList, twoPlaces_of_nonneg first.1,
      twoPlaces_of_nonneg second.1] at mem
    rcases List.mem_append.1 mem with early | late
    · exact Text.isDigit_of_mem_padded early
    · exact Text.isDigit_of_mem_padded late

/-- Instants of one season have one name for it, instants of seasons less than a hundred years apart
have two, and from the year 0 on a name is four digits. -/
theorem season_names_partition_time (x y : Timestamp) :
    (x.seasonYear = y.seasonYear → seasonOf x.date = seasonOf y.date) ∧
    (0 < |x.seasonYear - y.seasonYear| → |x.seasonYear - y.seasonYear| < 100 →
      seasonOf x.date ≠ seasonOf y.date) ∧
    (0 ≤ x.seasonYear → (seasonOf x.date).length = 4 ∧
      ∀ c ∈ (seasonOf x.date).toList, Text.isDigit c = true) := by
  rw [x.seasonYear_eq, y.seasonYear_eq]
  refine ⟨fun same => congrArg seasonName same, fun apart near sameName => ?_, seasonName_of_nonneg⟩
  have multiple := Int.eq_zero_of_abs_lt_dvd (dvd_of_seasonName_eq sameName) near
  rw [multiple, abs_zero] at apart
  exact Int.lt_irrefl 0 apart

/-- The leap second before the season of 2000 and the first instant of it; the last season that is
named with a minus alone, and one ninety years before it; and the first years there are. -/
theorem season_names_partition_time_centuries :
    let day (year : Int) (month day : Nat) (h : minYear ≤ year ∧ year ≤ maxYear)
        (h' : 1 ≤ month ∧ month ≤ 12) (h'' : 1 ≤ day ∧ day ≤ daysInMonth year month) : Date :=
      ⟨year, month, day, h, h', h''⟩
    let midnight (d : Date) : Timestamp := ⟨d, 0, 0, by decide, by decide⟩
    let leap : Timestamp := ⟨day 2000 6 30 (by decide) (by decide) (by decide), 86399, 1500000000,
      by decide, by decide⟩
    let july := midnight (day 2000 7 1 (by decide) (by decide) (by decide))
    let spring := midnight (day 0 3 1 (by decide) (by decide) (by decide))
    let earlier := midnight (day (-90) 3 1 (by decide) (by decide) (by decide))
    leap.seasonYear = 1999 ∧ july.seasonYear = 2000 ∧ seasonOf leap.date ≠ seasonOf july.date ∧
      (seasonOf leap.date).length = 4 ∧ spring.seasonYear = -1 ∧ earlier.seasonYear = -91 ∧
      seasonOf spring.date ≠ seasonOf earlier.date := by
  intro day midnight leap july spring earlier
  have before : leap.seasonYear = 1999 := by decide
  have after : july.seasonYear = 2000 := by decide
  have late : spring.seasonYear = -1 := by decide
  have early : earlier.seasonYear = -91 := by decide
  refine ⟨before, after, (season_names_partition_time leap july).2.1 ?_ ?_,
    ((season_names_partition_time leap july).2.2 ?_).1, late, early,
    (season_names_partition_time spring earlier).2.1 ?_ ?_⟩
  all_goals simp only [before, after, late, early]; decide

end LeagueSync
