import LeagueSync.Text.Numeral
import LeagueSync.Time.Calendar

/-!
# LeagueSync.Time.Timestamp

Instants of universal time with nanoseconds. A leap second is what follows a second without a new
second of the day: its nanoseconds go on from one second. After the last second of a minute it is
second 60 on the clock. An instant may also have a leap second anywhere else in a minute; no clock
shows such an instant (`Timestamp.OnClock`), no reader gives one, and what is written of it is the
next second.

Two texts are written: `Timestamp.text` ends in `Z` and stands in JSON, `Timestamp.offsetText`
ends in `+00:00` and stands in the database. Both give the fraction with 0, 3, 6 or 9 digits, the
fewest that lose nothing, and years outside 0 to 9999 with a sign.

* `Timestamp.onClock_of_ofClock?`: what a clock shows, whatever it is, is an instant on the clock.
-/

namespace LeagueSync

structure Timestamp where
  date : Date
  /-- The second of the day. -/
  second : Nat
  /-- Nanoseconds; from one second on inside a leap second. -/
  nano : Nat
  second_range : second < 86400
  nano_range : nano < 2000000000
  deriving DecidableEq

namespace Timestamp

/-- Whether a clock shows the instant: a leap second follows the last second of a minute. -/
def OnClock (t : Timestamp) : Prop :=
  1000000000 ≤ t.nano → t.second % 60 = 59

instance (t : Timestamp) : Decidable t.OnClock :=
  inferInstanceAs (Decidable (_ → _))

/-- The instant with these clock readings, second 60 standing for a leap second. -/
def ofClock? (date : Date) (hour minute second nano : Nat) : Option Timestamp :=
  if hour < 24 ∧ minute < 60 ∧ second ≤ 60 ∧ nano < 1000000000 then
    let s := hour * 3600 + minute * 60 + min second 59
    let n := if second = 60 then nano + 1000000000 else nano
    if h : s < 86400 ∧ n < 2000000000 then some ⟨date, s, n, h.1, h.2⟩ else none
  else none

/-- The instant that a clock with this offset from universal time shows. The offset is below a
day. -/
def atOffset? (local_ : Timestamp) (offsetSeconds : Int) : Option Timestamp :=
  let s := (local_.second : Int) - offsetSeconds
  let date? :=
    if s < 0 then local_.date.prev?
    else if 86400 ≤ s then local_.date.next?
    else some local_.date
  match date? with
  | none => none
  | some date =>
    let s := (s % 86400).toNat
    if h : s < 86400 then some ⟨date, s, local_.nano, h, local_.nano_range⟩ else none

def epoch : Timestamp where
  date := ⟨1970, 1, 1, by decide, by decide, by decide⟩
  second := 0
  nano := 0
  second_range := by decide
  nano_range := by decide

def ofEpochMillisecond? (ms : Int) : Option Timestamp :=
  (Date.ofEpochDay? (ms / 86400000)).bind fun date =>
    let inDay := (ms % 86400000).toNat
    ofClock? date (inDay / 3600000) (inDay / 60000 % 60) (inDay / 1000 % 60)
      (inDay % 1000 * 1000000)

/-- Seconds since the start of 1970, a leap second counted with the one before it. -/
def epochSecond (t : Timestamp) : Int :=
  t.date.epochDay * 86400 + t.second

/-- The nanoseconds from one instant to another. By the time of day alone, the one that is earlier
in the day gives its leap second to what lies between them. -/
def nanosSince (t s : Timestamp) : Int :=
  let leap : Int :=
    if s.second < t.second ∧ 1000000000 ≤ s.nano then 1
    else if t.second < s.second ∧ 1000000000 ≤ t.nano then -1
    else 0
  (t.epochSecond - s.epochSecond + leap) * 1000000000 + ((t.nano : Int) - s.nano)

/-- A year with four digits, or with a sign and at least four. -/
def yearText (year : Int) : List Char :=
  if 0 ≤ year ∧ year ≤ 9999 then Text.padded 4 year.toNat
  else (if year < 0 then '-' else '+') :: Text.padded 4 year.natAbs

/-- A fraction of a second: nothing, or a point and 3, 6 or 9 digits. -/
def fractionText (nano : Nat) : List Char :=
  if nano = 0 then []
  else if nano % 1000000 = 0 then '.' :: Text.padded 3 (nano / 1000000)
  else if nano % 1000 = 0 then '.' :: Text.padded 6 (nano / 1000)
  else '.' :: Text.padded 9 nano

/-- Date and time of day, without the offset. -/
def clockText (t : Timestamp) : List Char :=
  let leap := 1000000000 ≤ t.nano
  let second := t.second % 60 + (if leap then 1 else 0)
  yearText t.date.year ++ ['-'] ++ Text.padded 2 t.date.month ++ ['-'] ++ Text.padded 2 t.date.day
    ++ ['T'] ++ Text.padded 2 (t.second / 3600) ++ [':'] ++ Text.padded 2 (t.second / 60 % 60)
    ++ [':'] ++ Text.padded 2 second ++ fractionText (t.nano % 1000000000)

def text (t : Timestamp) : String :=
  String.ofList (t.clockText ++ ['Z'])

/-- The text with a numeric offset. -/
def offsetText (t : Timestamp) : String :=
  String.ofList (t.clockText ++ "+00:00".toList)

theorem onClock_of_ofClock? {date : Date} {hour minute second nano : Nat} {t : Timestamp}
    (h : ofClock? date hour minute second nano = some t) : t.OnClock := by
  obtain ⟨possible, h⟩ := Option.ite_none_right_eq_some.1 h
  by_cases range : hour * 3600 + minute * 60 + min second 59 < 86400 ∧
      (if second = 60 then nano + 1000000000 else nano) < 2000000000
  · rw [dif_pos range, Option.some.injEq] at h
    subst h
    intro leap
    dsimp only at leap ⊢
    split at leap <;> omega
  · rw [dif_neg range] at h
    cases h

theorem onClock_epoch : epoch.OnClock := by decide

/-- A clock that stands still at the epoch is a clock. -/
theorem onClock_standing (_now : Nat) : epoch.OnClock := onClock_epoch

/-- A clock that counts milliseconds is a clock. -/
theorem onClock_ofEpochMillisecond (ms : Int) : ((ofEpochMillisecond? ms).getD epoch).OnClock := by
  cases read : ofEpochMillisecond? ms with
  | none => exact onClock_epoch
  | some t =>
    obtain ⟨date, -, shown⟩ := Option.bind_eq_some_iff.1 read
    exact onClock_of_ofClock? shown

end Timestamp
end LeagueSync
