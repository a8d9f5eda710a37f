import LeagueSync.Batch.Syncer
import LeagueSync.Proofs.EntrySchedule
import LeagueSync.Proofs.SteadyAnswers

/-!
# LeagueSync.Proofs.EntryRefresh

What syncs make of the table of entries, when the remote interface has one answer for each id. Each
valid payload is written under the id that was asked for, with the gameweek of the sync, and nothing
else is written. So it only counts which syncs were made. Syncs may also overlap: then a sync counts
from the moment on which its row is written, or it is known that there is none to write.

* `Tables.Refreshed`: a table before and after some syncs.
* `EntryService.Refreshing.sync`: one sync more.
* `EntrySchedule.Refreshing.step`: one step of a sync among others. `EntrySchedule.refreshing`: when
  all have ended, all were made.
-/

namespace LeagueSync

/-! ## Tables -/

namespace Tables

/-- A table before and after some syncs. The ids with a valid payload have its record, with the
gameweek of one of their syncs; all others have what they had. -/
structure Refreshed (answers : EntryId → Option EntryPayload) (made : List SyncUnit)
    (t u : Tables) : Prop where
  written : ∀ id p, answers id = some p → id ∈ made.map Prod.fst →
    ∃ gameweek time, (id, gameweek) ∈ made ∧
      u.entries.get? id = some (.ofEntry (p.toEntry gameweek time))
  spared : ∀ id, answers id = none ∨ id ∉ made.map Prod.fst →
    u.entries.get? id = t.entries.get? id

variable {answers : EntryId → Option EntryPayload} {made units : List SyncUnit} {t u v : Tables}

namespace Refreshed

theorem refl (answers : EntryId → Option EntryPayload) (t : Tables) :
    t.Refreshed answers [] t where
  written _ _ _ synced := nomatch synced
  spared _ _ := rfl

/-- Of several syncs of an id the last one decides. -/
theorem trans (h : t.Refreshed answers made u) (h' : u.Refreshed answers units v) :
    t.Refreshed answers (made ++ units) v := by
  refine ⟨fun id p valid synced => ?_, fun id other => ?_⟩
  · by_cases again : id ∈ units.map Prod.fst
    · obtain ⟨gameweek, time, member, row⟩ := h'.written id p valid again
      exact ⟨gameweek, time, List.mem_append_right _ member, row⟩
    · rw [List.map_append, List.mem_append] at synced
      obtain ⟨gameweek, time, member, row⟩ := h.written id p valid (synced.resolve_right again)
      exact ⟨gameweek, time, List.mem_append_left _ member,
        (h'.spared id (.inr again)).trans row⟩
  · rw [List.map_append, List.mem_append, not_or] at other
    rw [h'.spared id (other.imp_right And.right), h.spared id (other.imp_right And.left)]

theorem of_invalid {unit : SyncUnit} (invalid : answers unit.1 = none) (t : Tables) :
    t.Refreshed answers [unit] t where
  written id p valid synced := by
    rw [List.map_singleton, List.mem_singleton] at synced
    rw [synced, invalid] at valid
    cases valid
  spared _ _ := rfl

/-- A sync that writes its payload under the id that was asked for. -/
theorem of_valid {unit : SyncUnit} {p : EntryPayload} (valid : answers unit.1 = some p)
    (own : p.id = unit.1) (time : Timestamp) (t : Tables) :
    t.Refreshed answers [unit] (t.upsertEntry (p.toEntry unit.2 time)) := by
  have rows (id : EntryId) : (t.upsertEntry (p.toEntry unit.2 time)).entries.get? id =
      if id = unit.1 then some (.ofEntry (p.toEntry unit.2 time)) else t.entries.get? id := by
    rw [entries_upsert, ← own]
    rfl
  refine ⟨fun id p' valid' synced => ?_, fun id other => ?_⟩
  · rw [List.map_singleton, List.mem_singleton] at synced
    subst synced
    cases valid.symm.trans valid'
    exact ⟨unit.2, time, List.mem_singleton_self _, by rw [rows, if_pos rfl]⟩
  · rw [rows, if_neg]
    rintro rfl
    rcases other with invalid | unsynced
    · rw [valid] at invalid
      cases invalid
    · exact unsynced List.mem_cons_self

/-- The row of each id after syncs of these ids with one gameweek. -/
theorem row {gameweek : Option GameweekId} {ids : List EntryId}
    (h : t.Refreshed answers (ids.map fun id => (id, gameweek)) u) (id : EntryId) :
    match if id ∈ ids then answers id else none with
    | some p => ∃ time, u.entries.get? id = some (.ofEntry (p.toEntry gameweek time))
    | none => u.entries.get? id = t.entries.get? id := by
  have synced : (ids.map fun id => (id, gameweek)).map Prod.fst = ids := by
    rw [List.map_map]
    exact List.map_id ids
  have spared := h.spared id
  rw [synced] at spared
  by_cases asked : id ∈ ids
  · rw [if_pos asked]
    cases valid : answers id with
    | none => exact spared (.inl valid)
    | some p =>
      obtain ⟨own, time, member, row⟩ := h.written id p valid (by rwa [synced])
      obtain ⟨_, -, same⟩ := List.mem_map.1 member
      cases same
      exact ⟨time, row⟩
  · rw [if_neg asked]
    exact spared (.inr asked)

end Refreshed

end Tables

/-! ## One sync after another -/

namespace EntryService

variable {σ : Type}

/-- A world in which some syncs were made since a start. -/
structure Refreshing (links : Link → Prop) (answers : EntryId → Option EntryPayload)
    (start w : World σ) (made : List SyncUnit) : Prop where
  works : w.database.fails .upsertEntry = none
  link : links w.link
  rows : start.database.tables.Refreshed answers made w.database.tables

namespace Refreshing

variable {s : EntryService} {links : Link → Prop} {answers : EntryId → Option EntryPayload}
  {start w : World σ} {made : List SyncUnit} {unit : SyncUnit}

theorem refl (works : w.database.fails .upsertEntry = none) (there : links w.link) :
    Refreshing links answers w w [] :=
  ⟨works, there, .refl ..⟩

theorem trans (h : Refreshing links answers start w made) {u : World σ} {others : List SyncUnit}
    (h' : Refreshing links answers w u others) :
    Refreshing links answers start u (made ++ others) :=
  ⟨h'.works, h'.link, h.rows.trans h'.rows⟩

theorem clock (fixed : s.Answers links answers) (h : Refreshing links answers start w made)
    (now : Nat) :
    Refreshing links answers start { w with link := { w.link with now } } made :=
  ⟨h.works, fixed.clock _ h.link now, h.rows⟩

theorem skip (h : Refreshing links answers start w made) {link : Link} (there : links link)
    (invalid : answers unit.1 = none) :
    Refreshing links answers start { w with link } (made ++ [unit]) :=
  ⟨h.works, there, h.rows.trans (.of_invalid invalid _)⟩

theorem upsert (h : Refreshing links answers start w made) {p : EntryPayload}
    (valid : answers unit.1 = some p) (own : p.id = unit.1) (time : Timestamp) :
    let e := p.toEntry unit.2 time
    (w.database.upsertEntry e).1 = .ok e ∧
      Refreshing links answers start
        { w with database := (w.database.upsertEntry e).2 } (made ++ [unit]) := by
  intro e
  simp only [Database.upsertEntry, Database.perform, h.works]
  exact ⟨rfl, h.works, h.link, h.rows.trans (.of_valid valid own time _)⟩

variable [Backend σ]

theorem cache (h : Refreshing links answers start w made) (store : Store Entry) (key : CacheKey)
    (e : Entry) :
    Refreshing links answers start (w.putEntryShelf (store.writeThrough key e w.entryShelf))
      made := by
  obtain ⟨stats, wrote⟩ := store.writeThrough_eq key e w.entryShelf
  rw [wrote]
  exact ⟨h.works, h.link, h.rows⟩

/-- Each sync adds itself, whether it fails or not. -/
theorem sync (fixed : s.Answers links answers) (h : Refreshing links answers start w made)
    (unit : SyncUnit) :
    Refreshing links answers start (s.sync unit.1 unit.2 w).2 (made ++ [unit]) := by
  have answer := fixed.fetch w.link h.link unit.1
  have next := fixed.next w.link h.link unit.1
  rw [EntryService.sync]
  cases fetched : s.fetch unit.1 w.link with
  | mk result link =>
    rw [fetched] at answer next
    cases result with
    | error e => exact h.skip next answer.symm
    | ok p =>
      have asked : Refreshing links answers start { w with link } made := ⟨h.works, next, h.rows⟩
      obtain ⟨wrote, after⟩ :=
        asked.upsert answer.symm (fetch_id fetched) (s.env.timeOfDay link.now)
      cases written : w.database.upsertEntry (p.toEntry unit.2 (s.env.timeOfDay link.now)) with
      | mk result database =>
        simp only [written] at wrote after ⊢
        subst wrote
        exact after.cache ..

end Refreshing

end EntryService

/-! ## Syncs that overlap -/

namespace EntrySchedule

variable {s : EntryService} {links : Link → Prop} {answers : EntryId → Option EntryPayload}
  {start : World Memory} {units made : List SyncUnit} {unit : SyncUnit} {v u : EntrySchedule}

/-- These syncs, of which none has begun. -/
def ofUnits (w : World Memory) (units : List SyncUnit) : EntrySchedule :=
  .start w (units.map fun unit => .sync unit.1 unit.2)

/-- What the remote interface tells a sync is its answer for the id. -/
def Tells (links : Link → Prop) (answers : EntryId → Option EntryPayload) (units : List SyncUnit) :
    EntryEvent → Prop
  | .answer i result link =>
    links link ∧ ∀ unit, units[i]? = some unit → result.toOption = answers unit.1
  | _ => True

/-- Where a sync stands. From its write on, and when it gets no valid payload, it counts as made. -/
inductive Stands (answers : EntryId → Option EntryPayload) (made : List SyncUnit)
    (unit : SyncUnit) : EntryCall → Prop where
  | fetching : Stands answers made unit (.fetching unit.1 unit.2)
  | storing {p : EntryPayload} (valid : answers unit.1 = some p) (own : p.id = unit.1)
      (time : Timestamp) : Stands answers made unit (.storing unit.1 (p.toEntry unit.2 time))
  | caching (id : EntryId) (e : Entry) (there : unit ∈ made) :
      Stands answers made unit (.caching id e)
  | ended (answer : Except SyncError (Option Entry)) (there : unit ∈ made) :
      Stands answers made unit (.ended answer)

theorem Stands.mono {made' : List SyncUnit} (grown : made ⊆ made') {c : EntryCall}
    (h : Stands answers made unit c) : Stands answers made' unit c := by
  cases h with
  | fetching => exact .fetching
  | storing valid own time => exact .storing valid own time
  | caching id e there => exact .caching id e (grown there)
  | ended answer there => exact .ended answer (grown there)

/-- What holds between the steps of syncs that overlap. -/
structure Refreshing (links : Link → Prop) (answers : EntryId → Option EntryPayload)
    (start : World Memory) (units : List SyncUnit) (v : EntrySchedule) (made : List SyncUnit) :
    Prop where
  world : EntryService.Refreshing links answers start v.world made
  known : ∀ unit ∈ made, unit ∈ units
  length : v.calls.length = units.length
  calls : ∀ (i : Nat) unit c, units[i]? = some unit → v.calls[i]? = some c →
    Stands answers made unit c

namespace Refreshing

theorem unit_of_call (h : Refreshing links answers start units v made) {i : Nat} {c : EntryCall}
    (there : v.calls[i]? = some c) :
    ∃ unit, units[i]? = some unit ∧ Stands answers made unit c := by
  have inside : i < units.length := h.length ▸ (List.getElem?_eq_some_iff.1 there).1
  exact ⟨_, List.getElem?_eq_getElem inside, h.calls i _ c (List.getElem?_eq_getElem inside) there⟩

theorem put (h : Refreshing links answers start units v made) {made' : List SyncUnit} {i : Nat}
    {d : EntryCall} (own : units[i]? = some unit) (stands : Stands answers made' unit d)
    (grown : made ⊆ made') (known : ∀ unit ∈ made', unit ∈ units)
    (world : EntryService.Refreshing links answers start u.world made')
    (calls : u.calls = v.calls.set i d) : Refreshing links answers start units u made' := by
  refine ⟨world, known, by rw [calls, List.length_set, h.length], ?_⟩
  intro j unit' c there found
  rw [calls] at found
  rcases getElem?_set_cases found with ⟨rfl, rfl⟩ | ⟨-, before⟩
  · cases own.symm.trans there
    exact stands
  · exact (h.calls j unit' c there before).mono grown

/-- A step with which a sync is made. -/
theorem make (h : Refreshing links answers start units v made) {i : Nat} {d : EntryCall}
    (own : units[i]? = some unit) (stands : Stands answers (made ++ [unit]) unit d)
    (world : EntryService.Refreshing links answers start u.world (made ++ [unit]))
    (calls : u.calls = v.calls.set i d) :
    Refreshing links answers start units u (made ++ [unit]) := by
  refine h.put own stands (List.subset_append_left _ _) ?_ world calls
  intro unit' there
  rcases List.mem_append.1 there with before | new
  · exact h.known unit' before
  · rw [List.mem_singleton.1 new]
    exact List.mem_of_getElem? own

theorem step (fixed : s.Answers links answers) (h : Refreshing links answers start units v made)
    {event : EntryEvent} (told : Tells links answers units event)
    (moved : v.step? s event = some u) :
    ∃ made', Refreshing links answers start units u made' := by
  cases event with
  | wait ms =>
    cases moved
    exact ⟨made, h.world.clock fixed _, h.known, h.length, h.calls⟩
  | answer i result link =>
    obtain ⟨there, told⟩ := told
    rw [step?] at moved
    split at moved
    · next id gameweek waits =>
      obtain ⟨unit, own, stands⟩ := h.unit_of_call waits
      have answer := told unit own
      cases stands
      cases result with
      | error e =>
        cases moved
        exact ⟨_, h.make own (.ended _ (by simp)) (h.world.skip there answer.symm) rfl⟩
      | ok p =>
        rw [answer?] at moved
        split at moved
        · next asked =>
          cases moved
          exact ⟨made, h.put own (.storing answer.symm asked _) (List.Subset.refl _) h.known
            ⟨h.world.works, there, h.world.rows⟩ rfl⟩
        · cases moved
    · cases moved
  | turn i =>
    obtain ⟨c, there, moved⟩ := Option.bind_eq_some_iff.1 moved
    obtain ⟨unit, own, stands⟩ := h.unit_of_call there
    cases stands with
    | fetching => cases moved
    | ended answer settled => cases moved
    | @storing p valid asked time =>
      obtain ⟨wrote, after⟩ := h.world.upsert valid asked time
      rw [turn?] at moved
      cases written : v.world.database.upsertEntry (p.toEntry unit.2 time) with
      | mk result database =>
        simp only [written] at wrote after moved
        subst wrote
        cases moved
        exact ⟨_, h.make own (.caching _ _ (by simp)) after rfl⟩
    | caching id e settled =>
      cases moved
      exact ⟨made, h.put own (.ended _ settled) (List.Subset.refl _) h.known
        (h.world.cache s.store (s.key id) e) rfl⟩

theorem replay (fixed : s.Answers links answers) (h : Refreshing links answers start units v made)
    {events : List EntryEvent} (told : ∀ event ∈ events, Tells links answers units event)
    (ran : v.replay? s events = some u) : ∃ made', Refreshing links answers start units u made' := by
  induction events generalizing v made with
  | nil =>
    cases ran
    exact ⟨made, h⟩
  | cons event events ih =>
    obtain ⟨first, rest⟩ := List.forall_mem_cons.1 told
    obtain ⟨w, moved, ran⟩ := Option.bind_eq_some_iff.1 ran
    obtain ⟨made', after⟩ := h.step fixed first moved
    exact ih after rest ran

end Refreshing

end EntrySchedule
end LeagueSync
