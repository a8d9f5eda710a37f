import LeagueSync.Proofs.Digits
import LeagueSync.Time.Reader

/-!
# LeagueSync.Proofs.TimestampText

What is written of an instant reads as that instant, leap seconds and fractions included, if it is
one that a clock shows. A leap second within a minute is written, and so read, as the second after
it: the instants `t` and `t.shown` have the same text. The text in JSON reads back in every year;
the one in the database is read by a format without signs, so it needs a year of four digits.

* `Timestamp.shown_eq_self_iff`: which instants are those that are written of them.
* `Timestamp.ofParts?_clock`: the parts of an instant give the instant back.
* `Timestamp.readLenient?_text`: the text in JSON is read as the instant that it shows.
* `Timestamp.readStored?_offsetText`: so is the text in the database, from year 0 to 9999.
* `Timestamp.onClock_of_readLenient?`, `Timestamp.onClock_of_readStored?`: whatever is read is an
  instant that a clock shows.
-/

namespace LeagueSync

namespace Text

theorem NoDigit.take {cs : List Char} (h : NoDigit cs) (n : Nat) : NoDigit (cs.take n) := by
  cases n with
  | zero => exact noDigit_nil
  | succ n =>
    cases cs with
    | nil => exact noDigit_nil
    | cons c cs => exact noDigit_cons (h c rfl)

theorem isBlank_of_isDigit {c : Char} (h : isDigit c = true) : isBlank c = false := by
  simp only [isDigit, Bool.and_eq_true, decide_eq_true_eq] at h
  simp [isBlank]
  omega

theorem skipBlanks_cons {c : Char} {cs : List Char} (h : isBlank c = false) :
    skipBlanks (c :: cs) = c :: cs := by
  simp [skipBlanks, h]

theorem skipBlanks_padded (width n : Nat) (rest : List Char) :
    skipBlanks (padded width n ++ rest) = padded width n ++ rest := by
  cases digits : padded width n with
  | nil => exact absurd digits (padded_ne_nil width n)
  | cons c cs =>
    have digit : isDigit c = true := isDigit_of_mem_padded (digits ▸ List.mem_cons_self)
    exact skipBlanks_cons (isBlank_of_isDigit digit)

end Text

theorem Date.day_lt (d : Date) : d.day < 100 := by
  have last := d.day_range.2
  have most : daysInMonth d.year d.month ≤ 31 := by
    rw [daysInMonth]
    split
    · split <;> omega
    · split <;> omega
  omega

namespace Timestamp

open Text

/-! ## Fields -/

theorem number?_digits {ds rest : List Char} {least most : Nat} (some_digit : ds ≠ [])
    (digit : ∀ c ∈ ds, isDigit c = true) (enough : least ≤ ds.length) (fits : ds.length ≤ most)
    (stop : ds.length = most ∨ NoDigit rest) :
    number? least most (ds ++ rest) = some (digitsValue ds, rest) := by
  have stops : NoDigit (rest.take (most - ds.length)) := by
    rcases stop with full | stop
    · rw [full, Nat.sub_self, List.take_zero]
      exact noDigit_nil
    · exact stop.take _
  have run : ((ds ++ rest).take most).takeWhile isDigit = ds := by
    rw [List.take_append, List.take_of_length_le fits]
    exact takeWhile_isDigit_append digit stops
  simp only [number?, run, List.drop_left]
  rw [if_pos ⟨enough, some_digit⟩]

theorem number?_padded {width n least most : Nat} {rest : List Char} (pos : 0 < width)
    (small : n < Nat.pow 10 width) (enough : least ≤ width) (fits : width ≤ most)
    (stop : width = most ∨ NoDigit rest) :
    number? least most (padded width n ++ rest) = some (n, rest) := by
  have length := length_padded pos small
  rw [← length] at enough fits stop
  rw [number?_digits (padded_ne_nil width n) (fun _ => isDigit_of_mem_padded) enough fits stop,
    digitsValue_padded]

theorem number?_two {n least : Nat} {rest : List Char} (small : n < 100) (enough : least ≤ 2) :
    number? least 2 (padded 2 n ++ rest) = some (n, rest) :=
  number?_padded (by decide) small enough (Nat.le_refl 2) (.inl rfl)

theorem looseField?_two {n : Nat} {rest : List Char} (small : n < 100) :
    looseField? (padded 2 n ++ rest) = some (n, rest) := by
  rw [looseField?, skipBlanks_padded, number?_two small (by decide)]

theorem char?_self (c : Char) (rest : List Char) : char? c (c :: rest) = some rest := by
  simp [char?]

theorem looseChar?_self {c : Char} (solid : isBlank c = false) (rest : List Char) :
    looseChar? c (c :: rest) = some rest := by
  rw [looseChar?, skipBlanks_cons solid, char?_self]

theorem noDigit_minus (rest : List Char) : NoDigit ('-' :: rest) :=
  noDigit_cons (by decide)

/-- A signed year reads up to the sign after it. -/
theorem number?_year (n : Nat) (rest : List Char) :
    number? 1 (padded 4 n ++ '-' :: rest).length (padded 4 n ++ '-' :: rest) =
      some (n, '-' :: rest) := by
  have one : 1 ≤ (padded 4 n).length := List.length_pos_iff.2 (padded_ne_nil 4 n)
  have fits : (padded 4 n).length ≤ (padded 4 n ++ '-' :: rest).length := by
    rw [List.length_append]
    omega
  rw [number?_digits (padded_ne_nil 4 n) (fun _ => isDigit_of_mem_padded) one fits
    (.inr (noDigit_minus rest)), digitsValue_padded]

theorem year?_padded {n : Nat} (small : n < 10000) (rest : List Char) :
    year? (padded 4 n ++ rest) = some ((n : Int), rest) := by
  have read : number? 1 4 (padded 4 n ++ rest) = some (n, rest) :=
    number?_padded (by decide) small (by decide) (Nat.le_refl 4) (.inl rfl)
  cases text : padded 4 n ++ rest with
  | nil => simp [padded_ne_nil] at text
  | cons c cs =>
    have digit : isDigit c = true := by
      cases digits : padded 4 n with
      | nil => exact absurd digits (padded_ne_nil 4 n)
      | cons d ds =>
        rw [digits, List.cons_append, List.cons.injEq] at text
        exact text.1 ▸ isDigit_of_mem_padded (digits ▸ List.mem_cons_self)
    have minus : c ≠ '-' := by
      rintro rfl
      exact absurd digit (by decide)
    have plus : c ≠ '+' := by
      rintro rfl
      exact absurd digit (by decide)
    rw [text] at read
    rw [year?]
    · rw [read, Option.map_some]
    · intro cs' same
      exact minus (List.cons.inj same).1
    · intro cs' same
      exact plus (List.cons.inj same).1

theorem skipBlanks_yearText (year : Int) (rest : List Char) :
    skipBlanks (yearText year ++ rest) = yearText year ++ rest := by
  rw [yearText]
  split
  · exact skipBlanks_padded 4 _ rest
  · split
    · exact skipBlanks_cons (by decide)
    · exact skipBlanks_cons (by decide)

/-- Every year reads back, with its sign if it has one. -/
theorem year?_yearText (year : Int) (rest : List Char) :
    year? (yearText year ++ '-' :: rest) = some (year, '-' :: rest) := by
  rw [yearText]
  split
  · rename_i plain
    rw [year?_padded (by omega), Int.toNat_of_nonneg plain.1]
  · split
    · rename_i negative
      simp only [List.cons_append, year?, number?_year, Option.map_some]
      rw [Int.ofNat_natAbs_of_nonpos (by omega), Int.neg_neg]
    · rename_i positive
      simp only [List.cons_append, year?, number?_year, Option.map_some]
      rw [Int.natAbs_of_nonneg (by omega)]

/-! ## Fractions -/

theorem fraction?_padded {width n : Nat} {rest : List Char} (pos : 0 < width) (nine : width ≤ 9)
    (small : n < Nat.pow 10 width) (stop : NoDigit rest) :
    fraction? ('.' :: (padded width n ++ rest)) = some (n * Nat.pow 10 (9 - width), rest) := by
  have length := length_padded pos small
  have run : (padded width n ++ rest).takeWhile isDigit = padded width n :=
    takeWhile_isDigit_append (fun _ => isDigit_of_mem_padded) stop
  have kept : (padded width n).take 9 = padded width n :=
    List.take_of_length_le (by omega)
  have after : (padded width n ++ rest).drop width = rest := List.drop_left' length
  simp only [fraction?, run, kept, padded_ne_nil, if_false, digitsValue_padded, length, after]

theorem fraction?_fractionText {nano : Nat} {rest : List Char} (small : nano < 1000000000)
    (stop : NoDigit rest) (noPoint : rest.head? ≠ some '.') :
    fraction? (fractionText nano ++ rest) = some (nano, rest) := by
  rw [fractionText]
  split
  · rename_i zero
    rw [zero, List.nil_append]
    cases rest with
    | nil => rfl
    | cons c cs =>
      simp only [fraction?]
      split
      · rename_i same
        rw [(List.cons.inj same).1] at noPoint
        exact absurd rfl noPoint
      · rfl
  · split
    · rename_i milli
      have short : nano / 1000000 < 1000 := by omega
      have value : nano / 1000000 * 1000000 = nano := by omega
      rw [List.cons_append, fraction?_padded (by decide) (by decide) short stop]
      exact congrArg (fun n => some (n, rest)) value
    · split
      · rename_i micro
        have short : nano / 1000 < 1000000 := by omega
        have value : nano / 1000 * 1000 = nano := by omega
        rw [List.cons_append, fraction?_padded (by decide) (by decide) short stop]
        exact congrArg (fun n => some (n, rest)) value
      · rw [List.cons_append, fraction?_padded (by decide) (by decide) small stop]
        exact congrArg (fun n => some (n, rest)) (Nat.mul_one nano)

/-! ## The instant that is written -/

/-- The instant that is written of one. -/
def shown (t : Timestamp) : Timestamp :=
  if onClock : t.OnClock then t
  else
    have leap : 1000000000 ≤ t.nano ∧ t.second % 60 ≠ 59 := Classical.not_imp.1 onClock
    { t with
      second := t.second + 1
      nano := t.nano - 1000000000
      second_range := by
        have range := t.second_range
        omega
      nano_range := Nat.lt_of_le_of_lt (Nat.sub_le ..) t.nano_range }

theorem shown_of_onClock {t : Timestamp} (onClock : t.OnClock) : t.shown = t :=
  dif_pos onClock

theorem onClock_shown (t : Timestamp) : t.shown.OnClock := by
  rw [shown]
  split
  · next onClock => exact onClock
  · intro leap
    have range := t.nano_range
    dsimp only at leap
    omega

theorem shown_eq_self_iff (t : Timestamp) : t.shown = t ↔ t.OnClock :=
  ⟨fun same => same ▸ t.onClock_shown, shown_of_onClock⟩

@[simp] theorem date_shown (t : Timestamp) : t.shown.date = t.date := by
  rw [shown]
  split <;> rfl

theorem clockText_shown (t : Timestamp) : t.shown.clockText = t.clockText := by
  rw [shown]
  split
  · rfl
  · next leap =>
    obtain ⟨leap, inside⟩ := Classical.not_imp.1 leap
    have range := t.nano_range
    have small : ¬ 1000000000 ≤ t.nano - 1000000000 := by omega
    have fraction : (t.nano - 1000000000) % 1000000000 = t.nano % 1000000000 := by omega
    have second : (t.second + 1) % 60 = t.second % 60 + 1 := by omega
    have minute : (t.second + 1) / 60 = t.second / 60 := by omega
    have hour : (t.second + 1) / 3600 = t.second / 3600 := by omega
    simp only [clockText, if_pos leap, if_neg small, fraction, second, minute, hour, Nat.add_zero]

/-! ## The instant of its parts -/

/-- The second that is written: 60 inside a leap second. -/
def shownSecond (t : Timestamp) : Nat :=
  t.second % 60 + (if 1000000000 ≤ t.nano then 1 else 0)

theorem shownSecond_le (t : Timestamp) : t.shownSecond ≤ 60 := by
  rw [shownSecond]
  split <;> omega

theorem ofClock?_clock {t : Timestamp} (onClock : t.OnClock) :
    ofClock? t.date (t.second / 3600) (t.second / 60 % 60) t.shownSecond (t.nano % 1000000000) =
      some t := by
  obtain ⟨date, second, nano, second_range, nano_range⟩ := t
  have hour : second / 3600 < 24 := by omega
  have minute : second / 60 % 60 < 60 := by omega
  by_cases leap : 1000000000 ≤ nano
  · have last : second % 60 = 59 := onClock leap
    have same : second / 3600 * 3600 + second / 60 % 60 * 60 + 59 = second := by omega
    have rest : nano % 1000000000 + 1000000000 = nano := by omega
    simp [ofClock?, shownSecond, leap, hour, minute, same, rest, second_range, nano_range,
      last, Nat.mod_lt]
  · have shown : second % 60 ≤ 60 := by omega
    have notLast : second % 60 ≠ 60 := by omega
    have same : second / 3600 * 3600 + second / 60 % 60 * 60 + min (second % 60) 59 = second := by
      omega
    have rest : nano % 1000000000 = nano := by omega
    simp [ofClock?, shownSecond, leap, shown, hour, minute, same, rest, second_range, nano_range,
      notLast]

theorem atOffset?_zero (t : Timestamp) : t.atOffset? 0 = some t := by
  obtain ⟨date, second, nano, second_range, nano_range⟩ := t
  have notBefore : ¬ (second : Int) < 0 := by omega
  have notAfter : ¬ (86400 : Int) ≤ second := by omega
  have same : ((second : Int) % 86400).toNat = second := by omega
  simp [atOffset?, notBefore, notAfter, same, second_range]

theorem ofParts?_clock {t : Timestamp} (onClock : t.OnClock) :
    ofParts? t.date.year t.date.month t.date.day (t.second / 3600) (t.second / 60 % 60)
      t.shownSecond (t.nano % 1000000000) 0 = some t := by
  simp only [ofParts?, Date.ofParts?_eq_some, ofClock?_clock onClock, atOffset?_zero,
    Option.bind_eq_bind, Option.bind_some]

/-! ## Whole texts -/

/-- The text of an instant, fields from the left. -/
theorem clockText_append (t : Timestamp) (rest : List Char) :
    t.clockText ++ rest =
      yearText t.date.year ++ '-' :: (padded 2 t.date.month ++ '-' :: (padded 2 t.date.day ++
        'T' :: (padded 2 (t.second / 3600) ++ ':' :: (padded 2 (t.second / 60 % 60) ++
          ':' :: (padded 2 t.shownSecond ++ (fractionText (t.nano % 1000000000) ++ rest)))))) := by
  simp only [clockText, shownSecond, List.append_assoc, List.cons_append, List.nil_append]

theorem dateTimeGap?_self (rest : List Char) : dateTimeGap? ('T' :: rest) = some rest := by
  simp [dateTimeGap?]

theorem readLenient?_text_of_onClock {t : Timestamp} (onClock : t.OnClock) :
    readLenient? t.text.toList = some t := by
  have month := t.date.month_range.2
  have second := t.second_range
  have shown := t.shownSecond_le
  have minus : isBlank '-' = false := by decide
  have colon : isBlank ':' = false := by decide
  have fraction : fraction? (fractionText (t.nano % 1000000000) ++ ['Z']) =
      some (t.nano % 1000000000, ['Z']) :=
    fraction?_fractionText (Nat.mod_lt _ (by decide)) (noDigit_cons (by decide)) (by decide)
  have offset : looseOffset? (skipBlanks ['Z']) = some (0, []) := by decide
  have stop : skipBlanks [] = [] := rfl
  rw [text, String.toList_ofList, clockText_append, readLenient?]
  simp only [skipBlanks_yearText, year?_yearText, looseChar?_self minus, looseChar?_self colon,
    looseField?_two (show t.date.month < 100 by omega), looseField?_two t.date.day_lt,
    dateTimeGap?_self, looseField?_two (show t.second / 3600 < 100 by omega),
    looseField?_two (show t.second / 60 % 60 < 100 by omega),
    looseField?_two (show t.shownSecond < 100 by omega), fraction, offset, stop, if_true,
    Option.bind_eq_bind, Option.bind_some, ofParts?_clock onClock]

theorem readLenient?_text (t : Timestamp) : readLenient? t.text.toList = some t.shown := by
  rw [text, ← clockText_shown]
  exact readLenient?_text_of_onClock t.onClock_shown

/-- Whether the year has four digits, as the format of the database has it. -/
def HasPlainYear (t : Timestamp) : Prop :=
  0 ≤ t.date.year ∧ t.date.year ≤ 9999

theorem hasPlainYear_epoch : epoch.HasPlainYear :=
  ⟨by decide, by decide⟩

@[simp] theorem hasPlainYear_shown (t : Timestamp) : t.shown.HasPlainYear ↔ t.HasPlainYear := by
  rw [HasPlainYear, date_shown, HasPlainYear]

theorem readStrict?_offsetText_of_onClock {t : Timestamp} (onClock : t.OnClock)
    (plain : t.HasPlainYear) : readStrict? t.offsetText.toList = some t := by
  have month := t.date.month_range.2
  have second := t.second_range
  have shown := t.shownSecond_le
  have year (rest : List Char) :
      number? 4 4 (yearText t.date.year ++ rest) = some (t.date.year.toNat, rest) := by
    have below := plain.2
    have small : t.date.year.toNat < 10000 := by omega
    rw [yearText, if_pos (And.intro plain.1 plain.2)]
    exact number?_padded (by decide) small (Nat.le_refl 4) (Nat.le_refl 4) (.inl rfl)
  have fraction : fraction? (fractionText (t.nano % 1000000000) ++ "+00:00".toList) =
      some (t.nano % 1000000000, "+00:00".toList) :=
    fraction?_fractionText (Nat.mod_lt _ (by decide)) (noDigit_cons (by decide)) (by decide)
  have offset : offset? (char? ':') "+00:00".toList = some (0, []) := by decide
  rw [offsetText, String.toList_ofList, clockText_append, readStrict?]
  simp only [year, char?_self, number?_two (show t.date.month < 100 by omega) (Nat.le_refl 2),
    number?_two t.date.day_lt (Nat.le_refl 2), dateTimeGap?_self,
    number?_two (show t.second / 3600 < 100 by omega) (Nat.le_refl 2),
    number?_two (show t.second / 60 % 60 < 100 by omega) (Nat.le_refl 2),
    number?_two (show t.shownSecond < 100 by omega) (Nat.le_refl 2), fraction, offset, if_true,
    Option.bind_eq_bind, Option.bind_some, Int.toNat_of_nonneg plain.1, ofParts?_clock onClock]

theorem readStored?_offsetText (t : Timestamp) (plain : t.HasPlainYear) :
    readStored? t.offsetText.toList = some t.shown := by
  rw [offsetText, ← clockText_shown, readStored?]
  have read := readStrict?_offsetText_of_onClock t.onClock_shown (t.hasPlainYear_shown.2 plain)
  rw [offsetText] at read
  rw [read, Option.some_or]

/-! ## What is read -/

theorem of_atOffset? {clock t : Timestamp} {offset : Int} (read : clock.atOffset? offset = some t) :
    t.second = (((clock.second : Int) - offset) % 86400).toNat ∧ t.nano = clock.nano := by
  unfold atOffset? at read
  dsimp only at read
  split at read
  · cases read
  · split at read
    · cases read
      exact ⟨rfl, rfl⟩
    · cases read

/-- A clock that is whole minutes ahead has its leap seconds at the ends of minutes as well. -/
theorem onClock_of_ofParts? {year offset : Int} {month day hour minute second nano : Nat}
    {t : Timestamp} (minutes : offset % 60 = 0)
    (read : ofParts? year month day hour minute second nano offset = some t) : t.OnClock := by
  simp only [ofParts?, Option.bind_eq_bind, Option.bind_eq_some_iff] at read
  obtain ⟨date, -, clock, shows, read⟩ := read
  obtain ⟨secondOf, nanoOf⟩ := of_atOffset? read
  intro leap
  rw [nanoOf] at leap
  have last := onClock_of_ofClock? shows leap
  rw [secondOf]
  omega

theorem minutes_of_signedOffset? {separator : List Char → Option (List Char)} {sign offset : Int}
    {cs rest : List Char} (read : signedOffset? separator sign cs = some (offset, rest)) :
    offset % 60 = 0 := by
  simp only [signedOffset?, Option.bind_eq_bind, Option.bind_eq_some_iff] at read
  obtain ⟨⟨hours, _⟩, -, _, -, ⟨minutes, _⟩, -, read⟩ := read
  obtain ⟨-, read⟩ := Option.ite_none_right_eq_some.1 read
  obtain ⟨rfl, -⟩ := Prod.mk.inj (Option.some.inj read)
  rw [show (hours * 3600 + minutes * 60 : Int) = (hours * 60 + minutes) * 60 by omega,
    ← Int.mul_assoc, Int.mul_emod_left]

theorem minutes_of_offset? {separator : List Char → Option (List Char)} {cs rest : List Char}
    {offset : Int} (read : offset? separator cs = some (offset, rest)) : offset % 60 = 0 := by
  unfold offset? at read
  split at read
  · cases read
    rfl
  · cases read
    rfl
  · exact minutes_of_signedOffset? read
  · exact minutes_of_signedOffset? read
  · exact minutes_of_signedOffset? read
  · cases read

theorem minutes_of_looseOffset? {cs rest : List Char} {offset : Int}
    (read : looseOffset? cs = some (offset, rest)) : offset % 60 = 0 := by
  unfold looseOffset? at read
  split at read
  · cases read
    rfl
  · exact minutes_of_offset? read

theorem onClock_of_readLenient? {cs : List Char} {t : Timestamp}
    (read : readLenient? cs = some t) : t.OnClock := by
  simp only [readLenient?, Option.bind_eq_bind, Option.bind_eq_some_iff] at read
  obtain ⟨_, -, _, -, _, -, _, -, _, -, _, -, _, -, _, -, _, -, _, -, _, -, _, -, offset, zone,
    read⟩ := read
  obtain ⟨-, read⟩ := Option.ite_none_right_eq_some.1 read
  exact onClock_of_ofParts? (minutes_of_looseOffset? zone) read

theorem onClock_of_readStrict? {cs : List Char} {t : Timestamp}
    (read : readStrict? cs = some t) : t.OnClock := by
  simp only [readStrict?, Option.bind_eq_bind, Option.bind_eq_some_iff] at read
  obtain ⟨_, -, _, -, _, -, _, -, _, -, _, -, _, -, _, -, _, -, _, -, _, -, _, -, offset, zone,
    read⟩ := read
  obtain ⟨-, read⟩ := Option.ite_none_right_eq_some.1 read
  exact onClock_of_ofParts? (minutes_of_offset? zone) read

theorem onClock_of_readPlain? {cs : List Char} {t : Timestamp}
    (read : readPlain? cs = some t) : t.OnClock := by
  simp only [readPlain?, Option.bind_eq_bind, Option.bind_eq_some_iff] at read
  obtain ⟨_, -, _, -, _, -, _, -, _, -, _, -, _, -, _, -, _, -, _, -, read⟩ := read
  obtain ⟨-, read⟩ := Option.ite_none_right_eq_some.1 read
  exact onClock_of_ofParts? rfl read

theorem onClock_of_readStored? {cs : List Char} {t : Timestamp}
    (read : readStored? cs = some t) : t.OnClock := by
  rcases Option.or_eq_some_iff.1 read with strict | ⟨-, plain⟩
  · exact onClock_of_readStrict? strict
  · exact onClock_of_readPlain? plain

end Timestamp
end LeagueSync
