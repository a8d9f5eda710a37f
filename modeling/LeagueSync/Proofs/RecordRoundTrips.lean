import LeagueSync.Entry.Service
import LeagueSync.Gameweek.Lookup
import LeagueSync.Proofs.CacheCalls
import LeagueSync.Proofs.RunLog

/-!
# LeagueSync.Proofs.RecordRoundTrips

What is written can be read. Every record whose counters are of the sizes that they have in the
program comes back from its text as it is shown, with any texts in it and any missing parts: as it
was, if a clock shows its times. Whatever text a record was read from, it is such a record, so
writing it and reading it again gives it once more. A store finds what it wrote.

* `Run.reads_toJson`, `Job.reads_toJson`, `Outcome.reads_toJson`: the records beside entries and
  gameweeks.
* `Json.Tree.lt_of_naturalBelow`: a counter that is read is within its bound.
* `Json.RoundTrips`: the law of an encoder and a decoder on the values of a domain.
* `Store.FindsWrites`: look-ups that are answered with what a write handed over give the value.
* `written_reads_back`: all of it.
-/

namespace LeagueSync
namespace Json

variable {α : Type}

/-- A text as a JSON value of a kind. -/
def readAs (decode : Tree → Option α) (text : String) : Option α :=
  (Tree.read? text).bind decode

theorem Reads.readAs_compact {decode : Tree → Option α} {v : Json} {a : α}
    (reads : Reads decode v a) : readAs decode (compact v) = some a := by
  obtain ⟨t, tree, read⟩ := reads
  rw [readAs, read?_compact tree, Option.bind_some, read]

theorem isSome_trees? (vs : List Json) : (trees? vs).isSome = vs.all fun v => v.tree?.isSome := by
  induction vs with
  | nil => rfl
  | cons v vs ih =>
    rw [List.all_cons, ← ih, trees?]
    cases tree : v.tree? with
    | none => rfl
    | some t => cases trees : trees? vs <;> rfl

/-- Values of a domain come back from their texts as what is shown of them, and whatever is read
from a text is of the domain, is what is shown of it, and comes back as it was. -/
structure RoundTrips (encode : α → Json) (decode : Tree → Option α) (domain : α → Prop)
    (shown : α → α) : Prop where
  back : ∀ a, domain a → readAs decode (compact (encode a)) = some (shown a)
  again : ∀ text a, readAs decode text = some a →
    domain a ∧ shown a = a ∧ readAs decode (compact (encode a)) = some a

theorem RoundTrips.of_reads {encode : α → Json} {decode : Tree → Option α} {domain : α → Prop}
    {shown : α → α} (reads : ∀ a, domain a → Reads decode (encode a) (shown a))
    (within : ∀ t a, decode t = some a → domain a ∧ shown a = a) :
    RoundTrips encode decode domain shown := by
  refine ⟨fun a fits => (reads a fits).readAs_compact, fun text a read => ?_⟩
  obtain ⟨t, -, decoded⟩ := Option.bind_eq_some_iff.1 read
  obtain ⟨fits, same⟩ := within t a decoded
  have back := (reads a fits).readAs_compact
  rw [same] at back
  exact ⟨fits, same, back⟩

/-! ## Bounds -/

namespace Tree

theorem lt_of_naturalBelow {bound : Nat} (t : Tree) (n : Nat)
    (read : naturalBelow bound t = some n) : n < bound := by
  obtain ⟨i, integer, rfl⟩ := Option.map_eq_some_iff.1 read
  cases t with
  | number literal =>
    rw [Tree.integer] at integer
    split at integer
    · split at integer
      · next i' _ within =>
        cases integer
        omega
      · cases integer
    · cases integer
  | _ => cases integer

end Tree
end Json

open Json

/-! ## Records -/

theorem Trigger.reads_toJson (t : Trigger) : Reads Trigger.decode t.toJson t := by
  refine ⟨_, rfl, ?_⟩
  rw [Trigger.decode, Tree.word, Option.bind_some, Trigger.ofName?_name]

namespace Run

theorem reads_toJson {r : Run} (fits : r.Fits) : Reads decode r.toJson r.shown := by
  have word : UInt32.size ≤ UInt64.size := by decide
  have nodup : fields.Nodup := by decide
  refine reads_record nodup rfl ?_ fun s holds => ?_
  · simp [tree?, isSome_tree?_ofOption, isSome_trees?, ofInt64, ofNat, Trigger.toJson]
  · simp only [List.forall_mem_cons] at holds
    obtain ⟨number, workflow, source, retryCount, total, succeeded, failed, failedIds, started,
      finished, -⟩ := holds
    simp only [number.optional (reads_nullable reads_int64 rfl _),
      workflow.required (reads_string _), source.required (Trigger.reads_toJson _),
      retryCount.required (reads_naturalBelow word fits.retryCount),
      total.required (reads_naturalBelow (Nat.le_refl _) fits.total),
      succeeded.required (reads_naturalBelow (Nat.le_refl _) fits.succeeded),
      failed.required (reads_naturalBelow (Nat.le_refl _) fits.failed),
      failedIds.required (reads_list reads_int64 _), started.required (reads_timestamp _),
      finished.required (reads_timestamp _), Option.bind_eq_bind, Option.bind_some, shown]

theorem of_decode {t : Tree} {r : Run} (read : decode t = some r) : r.Fits ∧ r.OnClock := by
  simp only [decode, Option.bind_eq_bind, Option.bind_eq_some_iff] at read
  obtain ⟨s, -, number, -, workflow, -, source, -, retryCount, readRetryCount, total, readTotal,
    succeeded, readSucceeded, failed, readFailed, ids, -, started, readStarted, finished,
    readFinished, made⟩ := read
  cases made
  have below {bound n : Nat} {name : String}
      (read : s.required name (Tree.naturalBelow bound) = some n) : n < bound :=
    of_required Tree.lt_of_naturalBelow read
  exact ⟨⟨below readRetryCount, below readTotal, below readSucceeded, below readFailed⟩,
    of_required onClock_of_timestamp readStarted, of_required onClock_of_timestamp readFinished⟩

end Run

namespace Job

/-- A job whose generation is of the size that it has in the program. -/
def Fits (j : Job) : Prop :=
  j.retryCount < UInt32.size

theorem reads_toJson {j : Job} (fits : j.Fits) : Reads decode j.toJson j.shown := by
  have word : UInt32.size ≤ UInt64.size := by decide
  have nodup : fields.Nodup := by decide
  refine reads_record nodup rfl ?_ fun s holds => ?_
  · simp [tree?, isSome_tree?_ofOption, isSome_trees?, ofInt64, ofInt32, ofNat, Trigger.toJson,
      Function.comp_def, Option.all_eq_true]
  · simp only [List.forall_mem_cons] at holds
    obtain ⟨ids, source, retryCount, gameweek, triggered, -⟩ := holds
    simp only [ids.optional (reads_nullable (reads_list reads_int64) rfl _),
      source.required (Trigger.reads_toJson _),
      retryCount.required (reads_naturalBelow word fits),
      gameweek.defaulted (reads_nullable reads_int32 rfl _),
      triggered.required (reads_timestamp _), Option.bind_eq_bind, Option.bind_some, shown]

theorem of_decode {t : Tree} {j : Job} (read : decode t = some j) : j.Fits ∧ j.OnClock := by
  simp only [decode, Option.bind_eq_bind, Option.bind_eq_some_iff] at read
  obtain ⟨s, -, ids, -, source, -, retryCount, readRetryCount, gameweek, -, triggered,
    readTriggered, made⟩ := read
  cases made
  exact ⟨of_required Tree.lt_of_naturalBelow readRetryCount,
    of_required onClock_of_timestamp readTriggered⟩

end Job

namespace Outcome

/-- An account whose counters are of the sizes that they have in the program. -/
structure Fits (o : Outcome) : Prop where
  total : o.total < UInt64.size
  succeeded : o.succeeded < UInt64.size
  failed : o.failed < UInt64.size

theorem reads_toJson {o : Outcome} (fits : o.Fits) : Reads decode o.toJson o := by
  have nodup : fields.Nodup := by decide
  refine reads_record nodup rfl ?_ fun s holds => ?_
  · simp [tree?, isSome_trees?, ofInt64, ofNat]
  · simp only [List.forall_mem_cons] at holds
    obtain ⟨total, succeeded, failed, failedIds, -⟩ := holds
    simp only [total.required (reads_naturalBelow (Nat.le_refl _) fits.total),
      succeeded.required (reads_naturalBelow (Nat.le_refl _) fits.succeeded),
      failed.required (reads_naturalBelow (Nat.le_refl _) fits.failed),
      failedIds.required (reads_list reads_int64 _), Option.bind_eq_bind, Option.bind_some]

theorem fits_of_decode {t : Tree} {o : Outcome} (read : decode t = some o) : o.Fits := by
  simp only [decode, Option.bind_eq_bind, Option.bind_eq_some_iff] at read
  obtain ⟨s, -, total, readTotal, succeeded, readSucceeded, failed, readFailed, ids, -, made⟩ :=
    read
  cases made
  exact ⟨of_required Tree.lt_of_naturalBelow readTotal,
    of_required Tree.lt_of_naturalBelow readSucceeded,
    of_required Tree.lt_of_naturalBelow readFailed⟩

end Outcome

/-! ## Cached texts -/

namespace Store

variable {V : Type}

/-- A write hands the backend one text for the value, and any later look-up that is answered with
that text, in whatever backend, gives what is shown of the value. -/
def FindsWrites (s : Store V) (shown : V → V) : Prop :=
  ∀ (σ : Type) [Backend σ] (key : CacheKey) (v : V) (ttl : Option Nat) (h : Shelf σ),
    ∃ text, (s.set key v ttl h.noting).2.backend.calls = [.set key.text text (ttl.or s.ttl)] ∧
      ∀ (σ' : Type) [Backend σ'] (key' : CacheKey) (h' : Shelf σ'),
        (Backend.get h'.now key'.text h'.backend).1 = .ok (some text) →
          (s.get key' h').1 = some (shown v)

theorem findsWrites (s : Store V) {shown : V → V}
    (reads : ∀ v, Reads s.decode (s.encode v) (shown v)) : s.FindsWrites shown := by
  intro σ _ key v ttl h
  refine ⟨s.write h.now v, ?_, ?_⟩
  · simp only [set, Shelf.backend_countFailure]
    rfl
  · intro σ' _ key' h' answered
    obtain ⟨stats, got⟩ := s.get_eq key' h'
    rw [got, answered]
    exact s.read_write (reads v) h.now

end Store

/-- Entries and gameweeks of any kind, and runs, jobs and accounts with counters of their sizes, are
read from their texts as they are shown, which is as they were exactly if a clock shows their times.
Whatever is read from any text is such a record, so it is read again from the text that is then
written of it. What the caches of entries and of gameweeks write they find. -/
theorem written_reads_back :
    RoundTrips Entry.toJson Entry.decode (fun _ => True) Entry.shown ∧
    RoundTrips Gameweek.toJson Gameweek.decode (fun _ => True) Gameweek.shown ∧
    RoundTrips Run.toJson Run.decode Run.Fits Run.shown ∧
    RoundTrips Job.toJson Job.decode Job.Fits Job.shown ∧
    RoundTrips Outcome.toJson Outcome.decode Outcome.Fits id ∧
    (∀ env ttl, (EntryService.storeOf env ttl).FindsWrites Entry.shown ∧
      (GameweekLookup.storeOf env ttl).FindsWrites Gameweek.shown) ∧
    (∀ e : Entry, e.shown = e ↔ e.OnClock) ∧ (∀ g : Gameweek, g.shown = g ↔ g.OnClock) ∧
    (∀ r : Run, r.shown = r ↔ r.OnClock) ∧ ∀ j : Job, j.shown = j ↔ j.OnClock := by
  refine ⟨.of_reads (fun e _ => e.reads_toJson) fun _ e read =>
      ⟨trivial, e.shown_eq_self_iff.2 (Entry.onClock_of_decode read)⟩,
    .of_reads (fun g _ => g.reads_toJson) fun _ g read =>
      ⟨trivial, g.shown_eq_self_iff.2 (Gameweek.onClock_of_decode read)⟩,
    .of_reads (fun _ => Run.reads_toJson) fun _ r read =>
      (Run.of_decode read).imp_right r.shown_eq_self_iff.2,
    .of_reads (fun _ => Job.reads_toJson) fun _ j read =>
      (Job.of_decode read).imp_right j.shown_eq_self_iff.2,
    .of_reads (fun _ => Outcome.reads_toJson) fun _ _ read => ⟨Outcome.fits_of_decode read, rfl⟩,
    fun env ttl =>
      ⟨Store.findsWrites _ Entry.reads_toJson, Store.findsWrites _ Gameweek.reads_toJson⟩,
    Entry.shown_eq_self_iff, Gameweek.shown_eq_self_iff, Run.shown_eq_self_iff,
    Job.shown_eq_self_iff⟩

/-- A run in a leap second long before the year 0, with the largest counters there are and a name
that is escaped throughout; and a job that is read from an array with a time spelled in another
way. -/
theorem written_reads_back_extremes :
    let leap : Timestamp := ⟨⟨-262143, 2, 28, by decide, by decide, by decide⟩, 43259, 1999999999,
      by decide, by decide⟩
    let r : Run := ⟨some (-1), "\"\\/\n\x00\x7f", .cascade, 4294967295, 18446744073709551615, 0, 1,
      [Int64.minValue, 7], leap, .epoch⟩
    let text := "[[3, -3], \"cron\", 2, null, \" 1970-1-1t1:0:0.0000000009+01:00\"]"
    let j : Job := ⟨some [3, -3], .cron, 2, none, .epoch⟩
    r.Fits ∧ r.OnClock ∧ readAs Run.decode (compact r.toJson) = some r ∧
      readAs Job.decode text = some j ∧ j.Fits ∧ readAs Job.decode (compact j.toJson) = some j := by
  intro leap r text j
  obtain ⟨-, -, runs, jobs, -, -, -, -, kept, -⟩ := written_reads_back
  have fits : r.Fits := ⟨by decide, by decide, by decide, by decide⟩
  have onClock : r.OnClock := by decide
  have back := runs.back r fits
  rw [(kept r).2 onClock] at back
  have read : readAs Job.decode text = some j := by decide +kernel
  obtain ⟨small, -, again⟩ := jobs.again text j read
  exact ⟨fits, onClock, back, read, small, again⟩

/-- An entry that was updated in a leap second that is not the last of its minute is read as if that
had been a second later. -/
theorem record_in_leap_second_is_moved :
    let newYear : Date := ⟨2024, 1, 1, by decide, by decide, by decide⟩
    let written : Timestamp := ⟨newYear, 30, 1750000000, by decide, by decide⟩
    let found : Timestamp := ⟨newYear, 31, 750000000, by decide, by decide⟩
    let e (t : Timestamp) : Entry := ⟨7, "Reds", "A B", none, none, none, none, none, none, none, t⟩
    readAs Entry.decode (compact (e written).toJson) = some (e found) ∧ e found ≠ e written := by
  decide +kernel

end LeagueSync
