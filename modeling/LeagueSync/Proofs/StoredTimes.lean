import LeagueSync.Proofs.GameweekAgreement
import LeagueSync.Proofs.RunLog

/-!
# LeagueSync.Proofs.StoredTimes

Which times survive the durable store. A year outside 0 to 9999 is written with a sign and all its
digits; the internet format has no signs, and the plain format has a blank where a `T` is written,
so neither reader takes the text. An entry with such a time is written and can no longer be found,
a deadline is lost, and a run with such a time makes each listing fail that includes it. Every other
time comes back as it is shown: as it was, fractions and leap seconds included, unless it is in a
leap second within a minute.

* `Timestamp.readStored?_offsetText_eq`: what is read of a text that was written.
* `Tables.findEntry_upsertEntry_self`, `Tables.findCurrent_upsertGameweeks_self`,
  `Database.recentRuns_recordRuns_eq_ok_iff`: what the three tables give back.
* `Database.gives_back_times`: all of it, for stores whose operations work.
-/

namespace LeagueSync

/-! ## Texts -/

namespace Timestamp

open Text

instance (t : Timestamp) : Decidable t.HasPlainYear :=
  inferInstanceAs (Decidable (_ ∧ _))

theorem yearText_of_not_plain {year : Int} (signed : ¬ (0 ≤ year ∧ year ≤ 9999)) :
    ∃ sign digits, yearText year = sign :: digits ∧ isDigit sign = false := by
  refine ⟨_, _, if_neg signed, ?_⟩
  split <;> decide

/-- The internet format stops at the sign of a year. -/
theorem readStrict?_offsetText_of_not_plain {t : Timestamp} (signed : ¬ t.HasPlainYear) :
    readStrict? t.offsetText.toList = none := by
  obtain ⟨sign, digits, year, noDigit⟩ := yearText_of_not_plain signed
  have stop (rest : List Char) : number? 4 4 (sign :: rest) = none := by
    simp [number?, noDigit]
  rw [offsetText, String.toList_ofList, clockText_append, year, List.cons_append, readStrict?,
    stop]
  rfl

/-- The plain format stops in front of the time, in every year. -/
theorem readPlain?_offsetText (t : Timestamp) : readPlain? t.offsetText.toList = none := by
  have month := t.date.month_range.2
  have stop (rest : List Char) : looseField? ('T' :: rest) = none := by
    rw [looseField?, skipBlanks_cons (by decide)]
    rfl
  rw [offsetText, String.toList_ofList, clockText_append, readPlain?]
  simp only [skipBlanks_yearText, year?_yearText, char?_self,
    looseField?_two (show t.date.month < 100 by omega), looseField?_two t.date.day_lt, stop,
    Option.bind_eq_bind, Option.bind_some, Option.bind_none]

theorem readStored?_offsetText_eq (t : Timestamp) :
    readStored? t.offsetText.toList = if t.HasPlainYear then some t.shown else none := by
  split
  · next plain => exact readStored?_offsetText t plain
  · next signed =>
    rw [readStored?, readStrict?_offsetText_of_not_plain signed, readPlain?_offsetText]
    rfl

end Timestamp

theorem readTime_offsetText (column : Nat) (t : Timestamp) :
    readTime column t.offsetText =
      if t.HasPlainYear then .ok t.shown else .error (.time column t.offsetText) := by
  rw [readTime, Timestamp.readStored?_offsetText_eq]
  by_cases plain : t.HasPlainYear
  · rw [if_pos plain, if_pos plain]
  · rw [if_neg plain, if_neg plain]

/-! ## Tables -/

namespace Tables

theorem findEntry_upsertEntry_self (t : Tables) (e : Entry) :
    (t.upsertEntry e).findEntry e.id =
      if e.updatedAt.HasPlainYear then .ok (some e.shown)
      else .error (.time 10 e.updatedAt.offsetText) := by
  rw [findEntry, entries_upsert, if_pos rfl]
  simp only [EntryRow.toEntry, EntryRow.ofEntry, readTime_offsetText]
  split <;> rfl

end Tables

theorem flagWord_bne_zero (b : Bool) : (flagWord b != 0) = b := by
  cases b <;> decide

/-- A gameweek as the store gives it back: a deadline whose year is not plain is lost. -/
def Gameweek.kept (g : Gameweek) : Gameweek :=
  { g.shown with deadline := g.shown.deadline.filter fun t => t.HasPlainYear }

theorem Gameweek.kept_eq_self_iff (g : Gameweek) :
    g.kept = g ↔ ∀ t ∈ g.deadline, t.HasPlainYear ∧ t.OnClock := by
  obtain ⟨id, name, deadline, current, next, finished⟩ := g
  cases deadline with
  | none => simp [kept, shown]
  | some t =>
    simp [kept, shown, Option.filter_some, Timestamp.shown_eq_self_iff]

theorem GameweekRow.toGameweek_ofGameweek (g : Gameweek) :
    (ofGameweek g).toGameweek g.id.toInt64 = .ok g.kept := by
  have back : g.id.toInt64.toInt32 = g.id := Int32.toInt32_toInt64 g.id
  have deadline : ((g.deadline.map Timestamp.offsetText).bind fun text =>
      Timestamp.readStored? text.toList) = g.kept.deadline := by
    rw [Gameweek.kept, Gameweek.shown]
    cases g.deadline with
    | none => rfl
    | some t =>
      simp only [Option.map_some, Option.bind_some, Timestamp.readStored?_offsetText_eq,
        Option.filter_some, decide_eq_true_eq, Timestamp.hasPlainYear_shown]
  rw [toGameweek, if_pos (by rw [back])]
  simp only [ofGameweek, flagWord_bne_zero, deadline, back]
  rfl

namespace Tables

/-- A gameweek that is the last of its number in a list, marked as current, and not below any mark
that is left. -/
structure Leading (t : Tables) (season : String) (gs : List Gameweek) (g : Gameweek) : Prop where
  last : gs.reverse.find? (fun g' => g'.id.toInt64 == g.id.toInt64) = some g
  current : g.isCurrent = true
  highest : ∀ id, t.Marked season gs id → id ≤ g.id.toInt64

theorem findCurrent_upsertGameweeks_self {t : Tables} {season : String} {gs : List Gameweek}
    {g : Gameweek} (leads : t.Leading season gs g) :
    (t.upsertGameweeks season gs).findCurrent season =
      .ok (some g.kept) := by
  have there : (t.upsertGameweeks season gs).gameweeks.get? (season, g.id.toInt64) =
      some (.ofGameweek g) := by
    rw [get?_upsertGameweeks, leads.last]
  have flag : (GameweekRow.ofGameweek g).isCurrent = 1 := (flagWord_eq_one_iff _).2 leads.current
  rw [findCurrent_of_largest there flag fun id marked =>
    leads.highest id ((marked_upsertGameweeks ..).1 marked), GameweekRow.toGameweek_ofGameweek]
  rfl

end Tables

/-! ## Runs -/

/-- Whether both times of a run survive. -/
def Run.HasPlainYears (r : Run) : Prop :=
  r.startedAt.HasPlainYear ∧ r.finishedAt.HasPlainYear

/-- A run as it is listed if its times survive. -/
def Run.numbered (taken : Int64 × Run) : Run :=
  { taken.2.shown with number := some taken.1 }

theorem Run.numbered_eq_iff (number : Int64) (r : Run) :
    numbered (number, r) = { r with number := some number } ↔ r.OnClock := by
  rw [OnClock, ← Timestamp.shown_eq_self_iff, ← Timestamp.shown_eq_self_iff]
  constructor
  · intro same
    exact ⟨congrArg startedAt same, congrArg finishedAt same⟩
  · intro both
    rw [numbered, shown, both.1, both.2]

theorem Run.listed_of_plain {r : Run} (plain : r.HasPlainYears) (number : Int64) :
    r.listed number = .ok (Run.numbered (number, r)) := by
  rw [listed, readTime_offsetText, if_pos plain.1, readTime_offsetText, if_pos plain.2]
  rfl

theorem Run.listed_of_not_plain {r : Run} (signed : ¬ r.HasPlainYears) (number : Int64) :
    ∃ fault, r.listed number = .error fault := by
  rw [listed, readTime_offsetText]
  by_cases started : r.startedAt.HasPlainYear
  · have finished : ¬ r.finishedAt.HasPlainYear := fun plain => signed ⟨started, plain⟩
    rw [if_pos started, readTime_offsetText, if_neg finished]
    exact ⟨_, rfl⟩
  · rw [if_neg started]
    exact ⟨_, rfl⟩

/-- One run that is lost makes the whole listing fail. -/
theorem mapM_listed_eq_ok_iff (taken : List (Int64 × Run)) (rs : List Run) :
    (taken.mapM fun run => run.2.listed run.1) = .ok rs ↔
      (∀ run ∈ taken, run.2.HasPlainYears) ∧ rs = taken.map Run.numbered := by
  induction taken generalizing rs with
  | nil => simp [pure, Except.pure, eq_comm]
  | cons run taken ih =>
    rw [List.mapM_cons, List.forall_mem_cons]
    by_cases plain : run.2.HasPlainYears
    · rw [Run.listed_of_plain plain]
      cases rest : taken.mapM fun run => run.2.listed run.1 with
      | error fault =>
        have lost : ¬ ∀ run ∈ taken, run.2.HasPlainYears := fun all => by
          have kept := (ih _).2 ⟨all, rfl⟩
          rw [rest] at kept
          cases kept
        exact iff_of_false (by simp [bind, Except.bind]) fun both => lost both.1.2
      | ok rs' =>
        obtain ⟨all, same⟩ := (ih rs').1 rest
        subst same
        simp only [bind, Except.bind, pure, Except.pure, Except.ok.injEq, List.map_cons]
        exact ⟨fun same => ⟨⟨plain, all⟩, same.symm⟩, fun ⟨_, same⟩ => same.symm⟩
    · obtain ⟨fault, lost⟩ := Run.listed_of_not_plain plain run.1
      simp [lost, plain, bind, Except.bind]

namespace Database

theorem stored_eq_ok_iff {α : Type} (result : Except StorageFault α) (a : α) :
    stored result = .ok a ↔ result = .ok a := by
  cases result <;> simp [stored]

theorem recentRuns_recordRuns_eq_ok_iff {d : Database} (numbered : d.tables.Numbered)
    (works : d.fails .recentRuns = none) {rs : List Run} (fit : ∀ r ∈ rs, r.Fits) {limit : Nat}
    (within : limit ≤ (d.recordRuns rs).1.length) (listed : List Run) :
    let asked := (d.recordRuns rs).1.reverse.take limit
    (d.recordRuns rs).2.recentRuns limit = .ok listed ↔
      (∀ run ∈ asked, run.2.HasPlainYears) ∧ listed = asked.map Run.numbered := by
  intro asked
  rw [recentRuns_recordRuns numbered works fit within, stored_eq_ok_iff, mapM_listed_eq_ok_iff]

/-- What the durable store gives back just after it took something: a text, an entry, the leading
gameweek of a season, and the last runs. Each comes back as it is shown if its years are plain, and
that is as it was exactly if a clock shows its times. Else an entry cannot be found, a deadline is
missing, and runs cannot be listed. -/
theorem gives_back_times (d : Database) (works : ∀ op, d.fails op = none)
    (numbered : d.tables.Numbered) :
    (∀ t : Timestamp, Timestamp.readStored? t.offsetText.toList =
      (if t.HasPlainYear then some t.shown else none) ∧ (t.shown = t ↔ t.OnClock)) ∧
    (∀ e : Entry, (d.upsertEntry e).1 = .ok e ∧ (d.upsertEntry e).2.findEntry e.id =
      (if e.updatedAt.HasPlainYear then .ok (some e.shown)
      else .error (.storage (.time 10 e.updatedAt.offsetText))) ∧ (e.shown = e ↔ e.OnClock)) ∧
    (∀ season gs g, d.tables.Leading season gs g →
      (d.upsertGameweeks season gs).1 = .ok () ∧
      (d.upsertGameweeks season gs).2.findCurrent season = .ok (some g.kept) ∧
      (g.kept = g ↔ ∀ t ∈ g.deadline, t.HasPlainYear ∧ t.OnClock)) ∧
    (∀ rs : List Run, (∀ r ∈ rs, r.Fits) → ∀ limit ≤ (d.recordRuns rs).1.length,
      let asked := (d.recordRuns rs).1.reverse.take limit
      (∀ listed, (d.recordRuns rs).2.recentRuns limit = .ok listed ↔
        (∀ run ∈ asked, run.2.HasPlainYears) ∧ listed = asked.map Run.numbered) ∧
      ∀ run ∈ asked, Run.numbered run = { run.2 with number := some run.1 } ↔ run.2.OnClock) := by
  refine ⟨fun t => ⟨t.readStored?_offsetText_eq, t.shown_eq_self_iff⟩, fun e => ?_,
    fun season gs g leads => ?_, fun rs fit limit within =>
      ⟨recentRuns_recordRuns_eq_ok_iff numbered (works _) fit within,
        fun run _ => Run.numbered_eq_iff run.1 run.2⟩⟩
  · simp only [upsertEntry, findEntry, perform, ask, works, Tables.findEntry_upsertEntry_self]
    exact ⟨rfl, by split <;> rfl, e.shown_eq_self_iff⟩
  · simp only [upsertGameweeks, findCurrent, perform, ask, works,
      Tables.findCurrent_upsertGameweeks_self leads]
    exact ⟨rfl, rfl, g.kept_eq_self_iff⟩

/-- The last moment of the year 9999, as if it were half a second into a leap second, comes back
from each table. -/
theorem gives_back_times_leap_second :
    let t : Timestamp := ⟨⟨9999, 12, 31, by decide, by decide, by decide⟩, 86399, 1500000000,
      by decide, by decide⟩
    let e : Entry := ⟨7, "Reds", "A B", none, none, none, none, none, none, none, t⟩
    let g : Gameweek := ⟨5, "e", some t, true, false, false⟩
    let r : Run := ⟨none, "w", .retry, 1, 2, 1, 1, [9], t, t⟩
    let d : Database := {}
    t.offsetText = "9999-12-31T23:59:60.500+00:00" ∧
      (d.upsertEntry e).2.findEntry 7 = .ok (some e) ∧
      (d.upsertGameweeks "2425" [g]).2.findCurrent "2425" = .ok (some g) ∧
      (d.recordRuns [r]).2.recentRuns 1 = .ok [{ r with number := some 1 }] := by
  intro t e g r d
  obtain ⟨-, entry, gameweek, runs⟩ := gives_back_times {} (fun _ => rfl) Tables.numbered_empty
  have leads : Tables.Leading {} "2425" [g] g := by
    refine ⟨rfl, rfl, fun id marked => ?_⟩
    rcases marked.cases with ⟨g', listed, own, -⟩ | ⟨-, row, there, -⟩
    · rw [List.mem_singleton.1 listed] at own
      exact own ▸ Int64.le_refl _
    · cases there
  have fits : r.Fits := ⟨by decide, by decide, by decide, by decide⟩
  have kept : g.kept = g := g.kept_eq_self_iff.2 (by decide)
  refine ⟨by decide +kernel, ?_, (gameweek "2425" [g] g leads).2.1.trans (by rw [kept]), ?_⟩
  · rw [(entry e).2.1, if_pos (by decide), e.shown_eq_self_iff.2 (by decide)]
  · have listed := (runs [r] (List.forall_mem_singleton.2 fits) 1 (by decide)).1
    refine (listed _).2 ⟨fun run asked => ?_, by decide +kernel⟩
    have one : (d.recordRuns [r]).1.reverse.take 1 = [(1, r)] := by decide +kernel
    rw [one, List.mem_singleton] at asked
    rw [asked]
    exact ⟨by decide, by decide⟩

/-- One second later nothing comes back, although everything was taken. -/
theorem year_ten_thousand_is_lost :
    let t : Timestamp := ⟨⟨10000, 1, 1, by decide, by decide, by decide⟩, 0, 0, by decide,
      by decide⟩
    let e : Entry := ⟨1, "Reds", "A B", none, none, none, none, none, none, none, t⟩
    let g : Gameweek := ⟨5, "e", some t, true, false, false⟩
    let r : Run := ⟨none, "w", .cron, 0, 1, 1, 0, [], t, t⟩
    let d : Database := {}
    let fault (column : Nat) : DatabaseError :=
      .storage (.time column "+10000-01-01T00:00:00+00:00")
    Timestamp.readStored? t.offsetText.toList = none ∧
      (d.upsertEntry e).1 = .ok e ∧ (d.upsertEntry e).2.findEntry 1 = .error (fault 10) ∧
      (d.upsertGameweeks "2425" [g]).1 = .ok () ∧
      (d.upsertGameweeks "2425" [g]).2.findCurrent "2425" =
        .ok (some { g with deadline := none }) ∧
      (d.recordRun r).1 = .ok 1 ∧ (d.recordRun r).2.recentRuns 1 = .error (fault 8) := by
  decide +kernel

end Database
end LeagueSync
