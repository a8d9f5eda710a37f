import LeagueSync.Entry.Service
import LeagueSync.Proofs.Digits
import LeagueSync.Proofs.EntryTable
import LeagueSync.Proofs.LiveCache
import LeagueSync.Proofs.RecordText
import Mathlib.Data.List.Basic

/-!
# LeagueSync.Proofs.EntryCoherence

Calls on entries that follow one another, on a cache in memory and a durable store that does not
fail. Every operation that caches an entry, the failing ones included, caches the row that the
entry has: what is written by a sync is read back as the same, from the cached text and from the
stored row. The one exception is a sync whose write to the cache breaks down, because the clock does
not reach the end of the lifetime: the row is stored then, and an older one may stay cached.

* `EntryService.Caches`: each cached text is read as the row of its id. Values that have expired are
  included, so that nothing has to be known about lifetimes.
* `EntryService.Coherent.step`, `EntryService.Coherent.run`: this is kept by each call and each run
  that does not break down.
* `EntryService.run_coherent`: what is cached, what a look-up answers and what several look-ups
  answer is the stored row, after every run.
-/

namespace LeagueSync

/-! ## Keys -/

theorem CacheKey.ofEntity_injective (scope entity : String) :
    Function.Injective fun id => (CacheKey.ofEntity scope entity id).text := by
  intro a b same
  have texts : (scope ++ ":" ++ entity ++ ":").toList ++ a.toList =
      (scope ++ ":" ++ entity ++ ":").toList ++ b.toList := by
    simpa only [CacheKey.ofEntity, ← String.toList_append] using congrArg String.toList same
  exact String.ext (List.append_cancel_left texts)

/-! ## What is cached of entries -/

namespace EntryService

/-- Each cached text, live or not, is read as the row of the id under whose key it is. -/
def Caches (s : EntryService) (m : Memory) (t : Tables) : Prop :=
  ∀ id v, m.items.get? (s.key id).text = some v →
    ∃ e, s.store.read v.data = some e ∧ t.findEntry id = .ok (some e)

/-- A world in which nothing fails and the cache says what the durable store says. -/
structure Coherent (s : EntryService) (w : World Memory) : Prop where
  sound : ∀ op, w.database.fails op = none
  readable : w.database.tables.Readable
  caches : s.Caches w.cache w.database.tables

theorem key_injective (s : EntryService) : Function.Injective fun id => (s.key id).text :=
  (CacheKey.ofEntity_injective s.scope "entry").comp Text.toString_int64_injective

theorem fetch_id {s : EntryService} {id : EntryId} {link link' : Link} {p : EntryPayload}
    (h : s.fetch id link = (.ok p, link')) : p.id = id := by
  rw [fetch] at h
  split at h
  · cases h
  · cases h
  · split at h
    · next same =>
      cases h
      exact same
    · cases h

/-- The payload in a response, if it is one of the entry that was asked for. -/
def payload? (id : EntryId) (response : Response) : Option EntryPayload := do
  let p ← (Json.Tree.read? response.body).bind EntryPayload.decode
  if p.id = id then some p else none

/-- What is sent for an entry. -/
theorem resolve?_entry (baseUrl : String) (id : EntryId) :
    ({ path := s!"/entry/{id}/" } : Call).resolve? baseUrl =
      .ok ⟨"GET", addressOf baseUrl s!"/entry/{id}/", [], [], none⟩ := by
  have named : s!"/entry/{id}/" ≠ "" := by
    intro empty
    have := congrArg String.length empty
    simp only [String.length_append] at this
    have one : (toString "/").length = 1 := rfl
    have none : "".length = 0 := rfl
    omega
  rw [Call.resolve?, if_neg named]
  rfl

/-- What a fetch comes to is the response of its request, read and checked. -/
theorem fetch_eq (s : EntryService) (id : EntryId) (l : Link) :
    let ran := s.client.request s.env { path := s!"/entry/{id}/" } l
    (s.fetch id l).2 = ran.2 ∧ (s.fetch id l).1.toOption = ran.1.toOption.bind (payload? id) := by
  rw [fetch, Client.fetch]
  cases s.client.request s.env { path := s!"/entry/{id}/" } l with
  | mk result m =>
    cases result with
    | error e =>
      dsimp only [Except.bind]
      split
      · next same =>
        cases same
        exact ⟨rfl, rfl⟩
      · next same =>
        cases same
        exact ⟨rfl, rfl⟩
      · next same => cases same
    | ok response =>
      simp only [Except.bind, Response.decode, payload?, Except.toOption, Option.bind_some]
      cases (Json.Tree.read? response.body).bind EntryPayload.decode with
      | none => exact ⟨rfl, rfl⟩
      | some p =>
        dsimp only
        by_cases own : p.id = id
        · rw [if_pos own]
          exact ⟨rfl, (if_pos own).symm⟩
        · rw [if_neg own]
          exact ⟨rfl, (if_neg own).symm⟩

theorem mem_idsOf (s : EntryService) (ids : List EntryId) (missing : List CacheKey) (id : EntryId) :
    id ∈ s.idsOf ids missing ↔ id ∈ ids ∧ s.key id ∈ missing := by
  rw [idsOf, List.mem_filterMap]
  constructor
  · rintro ⟨key, lacks, found⟩
    have same : s.key id = key := by simpa using List.find?_some found
    exact ⟨List.mem_of_find?_eq_some found, same ▸ lacks⟩
  · rintro ⟨asked, lacks⟩
    refine ⟨s.key id, lacks, ?_⟩
    obtain ⟨id', found⟩ : ∃ id', ids.find? (fun id' => s.key id' == s.key id) = some id' :=
      Option.isSome_iff_exists.1 (List.find?_isSome.2 ⟨id, asked, beq_self_eq_true _⟩)
    have same : s.key id' = s.key id := by simpa using List.find?_some found
    rw [found, s.key_injective (congrArg CacheKey.text same)]

theorem findEntry_of_sound {d : Database} (sound : ∀ op, d.fails op = none) (id : EntryId) :
    d.findEntry id = stored (d.tables.findEntry id) := by
  rw [Database.findEntry, Database.ask, sound]

section

variable {s : EntryService} {ttl : Option Nat} (stores : s.store = storeOf s.env ttl)
  {m : Memory} {t : Tables}
include stores

theorem read_write (e : Entry) (now : Nat) : s.store.read (s.store.write now e) = some e.shown := by
  rw [stores]
  exact Store.read_write _ (Entry.reads_toJson e) now

omit stores in
/-- Looking a key up in the cache finds nothing but the row of its id. -/
theorem Caches.look {shelf : Shelf Memory} (h : s.Caches shelf.backend t) (key : CacheKey) :
    s.Caches (s.store.get key shelf).2.backend t ∧
      ∀ id e, key = s.key id → (s.store.get key shelf).1 = some e →
        t.findEntry id = .ok (some e) := by
  obtain ⟨stats, got⟩ := Store.get_eq s.store key shelf
  rw [got]
  refine ⟨?_, ?_⟩
  · intro id v found
    exact h id v (Memory.get?_of_get found)
  · rintro id e rfl hit
    obtain ⟨text, live, read⟩ := Option.bind_eq_some_iff.1 ((Store.found_memory ..).symm.trans hit)
    obtain ⟨v, there, rfl⟩ := Memory.get?_of_lookup live
    obtain ⟨e', read', row⟩ := h id v there
    rw [read] at read'
    rwa [Option.some.inj read']

theorem Caches.putMany (h : s.Caches m t) {es : List Entry} (rows : ∀ e ∈ es,
    t.findEntry e.id = .ok (some e)) (now : Nat) (lifetime : Option Nat) :
    s.Caches (m.putMany now (es.map fun e => ((s.key e.id).text, s.store.write now e)) lifetime)
      t := by
  intro id v found
  cases reaches : m.reaches now lifetime with
  | false =>
    rw [Memory.putMany_of_not_reaches reaches] at found
    exact h id v found
  | true =>
    rw [Memory.putMany_of_reaches reaches] at found
    rcases Table.mem_of_get?_putAll found with written | before
    · rw [List.map_map, List.mem_map] at written
      obtain ⟨e, member, same⟩ := written
      obtain ⟨text, rfl⟩ := Prod.mk.inj same
      have own : e.id = id := s.key_injective text
      have row := rows e member
      have read := read_write stores e now
      rw [(Tables.onClock_of_findEntry row).shown] at read
      exact ⟨e, read, own ▸ row⟩
    · exact h id v before

theorem Caches.put (h : s.Caches m t) {e : Entry} (row : t.findEntry e.id = .ok (some e))
    (now : Nat) (lifetime : Option Nat) :
    s.Caches (m.put now (s.key e.id).text (s.store.write now e) lifetime) t := by
  have rows : ∀ e' ∈ [e], t.findEntry e'.id = .ok (some e') := by simpa using row
  exact h.putMany stores rows now lifetime

theorem Caches.upsertEntry (h : s.Caches m t) {e : Entry} (plain : e.updatedAt.HasPlainYear)
    {now : Nat} {lifetime : Option Nat} (reaches : m.reaches now lifetime = true) :
    s.Caches (m.put now (s.key e.id).text (s.store.write now e) lifetime) (t.upsertEntry e) := by
  intro id v found
  rw [Tables.findEntry_upsertEntry t plain]
  rw [Memory.put, if_pos reaches, Table.get?_put] at found
  by_cases own : id = e.id
  · rw [if_pos (by rw [own])] at found
    cases found
    exact ⟨e.shown, read_write stores e now, if_pos own⟩
  · rw [if_neg fun same => own (s.key_injective same)] at found
    rw [if_neg own]
    exact h id v found

end

/-- How looking several keys up in the cache has sifted them. -/
structure Sifted (s : EntryService) (t : Tables) (keys : List CacheKey)
    (found : Table CacheKey Entry) (missing : List CacheKey) : Prop where
  rows : ∀ id e, found.get? (s.key id) = some e → t.findEntry id = .ok (some e)
  asked : ∀ key ∈ missing, key ∈ keys
  covered : ∀ key ∈ keys, (found.get? key).isSome ∨ key ∈ missing

/-- Looking several keys up in the cache finds nothing but rows, and notes all that it lacks. -/
theorem Caches.getEach {s : EntryService} {t : Tables} {keys : List CacheKey}
    {shelf : Shelf Memory} (h : s.Caches shelf.backend t)
    (ids : ∀ key ∈ keys, ∃ id, s.key id = key) :
    s.Caches (s.store.getEach keys shelf).2.backend t ∧
      Sifted s t keys (s.store.getEach keys shelf).1.1 (s.store.getEach keys shelf).1.2 := by
  induction keys generalizing shelf with
  | nil => exact ⟨h, ⟨by simp [Store.getEach], by simp [Store.getEach], by simp⟩⟩
  | cons key keys ih =>
    obtain ⟨after, ofHit⟩ := h.look key
    obtain ⟨caches, rows, asked, covered⟩ := ih after fun k later => ids k (.tail _ later)
    rw [Store.getEach]
    cases hit : (s.store.get key shelf).1 with
    | none =>
      simp only [hit]
      refine ⟨caches, ⟨rows, ?_, ?_⟩⟩
      · intro k lacks
        rcases List.mem_cons.1 lacks with rfl | later
        · exact List.mem_cons_self
        · exact .tail _ (asked k later)
      · intro k member
        rcases List.mem_cons.1 member with rfl | later
        · exact .inr List.mem_cons_self
        · exact (covered k later).imp_right (.tail _)
    | some e =>
      simp only [hit]
      refine ⟨caches, ⟨?_, fun k lacks => .tail _ (asked k lacks), ?_⟩⟩
      · intro id e' found
        rw [Table.get?_put] at found
        by_cases here : s.key id = key
        · rw [if_pos here] at found
          exact ofHit id e' here.symm (hit.trans found)
        · rw [if_neg here] at found
          exact rows id e' found
      · intro k member
        rw [Table.get?_put]
        by_cases here : k = key
        · exact .inl (by rw [if_pos here]; rfl)
        · rw [if_neg here]
          exact covered k (List.mem_of_ne_of_mem here member)

/-- With the rows of the keys that are missing, a sifting has the row of each id. -/
theorem Sifted.get?_putAll {s : EntryService} {t : Tables} {keys missing : List CacheKey}
    {found : Table CacheKey Entry} (h : Sifted s t keys found missing) (readable : t.Readable)
    {row? : EntryId → Option Entry} (rows : ∀ id, t.findEntry id = .ok (row? id)) {es : List Entry}
    (right : ∀ e ∈ es, t.findEntry e.id = .ok (some e))
    (whole : ∀ e, s.key e.id ∈ missing → row? e.id = some e → e ∈ es) {id : EntryId}
    (asked : s.key id ∈ keys) :
    (found.putAll (es.map fun e => (s.key e.id, e))).get? (s.key id) = row? id := by
  have row {e : Entry} (given : t.findEntry id = .ok (some e)) : row? id = some e :=
    Except.ok.inj ((rows id).symm.trans given)
  cases there : (found.putAll (es.map fun e => (s.key e.id, e))).get? (s.key id) with
  | some e =>
    rcases Table.mem_of_get?_putAll there with loaded | before
    · obtain ⟨e', member, same⟩ := List.mem_map.1 loaded
      obtain ⟨key, rfl⟩ := Prod.mk.inj same
      have own : e'.id = id := s.key_injective (congrArg CacheKey.text key)
      exact (row (own ▸ right e' member)).symm
    · exact (row (h.rows id e before)).symm
  | none =>
    have lost := mt (Table.isSome_get?_putAll found _ (s.key id)).2 (by rw [there]; simp)
    obtain ⟨notLoaded, notFound⟩ := not_or.1 lost
    have lacks : s.key id ∈ missing := (h.covered _ asked).resolve_left notFound
    cases given : row? id with
    | none => rfl
    | some e =>
      have own : e.id = id := readable.id_of_findEntry (by rw [rows, given])
      have member : e ∈ es := whole e (own.symm ▸ lacks) (own.symm ▸ given)
      have key : s.key e.id = s.key id := by rw [own]
      refine absurd ?_ notLoaded
      exact List.mem_map.2 ⟨(s.key e.id, e), List.mem_map.2 ⟨e, member, rfl⟩, key⟩

/-! ## Calls -/

/-- A call on entries, or a while in which nothing is called. -/
inductive Step where
  | sync (id : EntryId) (gameweek : Option GameweekId)
  | find (id : EntryId)
  | findMany (ids : List EntryId)
  | warmUp
  | wait (ms : Nat)

def step (s : EntryService) (w : World Memory) : Step → World Memory
  | .sync id gameweek => (s.sync id gameweek w).2
  | .find id => (s.find id w).2
  | .findMany ids => (s.findMany ids w).2
  | .warmUp => (s.warmUp w).2
  | .wait ms => { w with link := w.link.advance ms }

def run (s : EntryService) (w : World Memory) (steps : List Step) : World Memory :=
  steps.foldl s.step w

theorem breakdowns_le_step (s : EntryService) (w : World Memory) (c : Step) :
    w.cache.breakdowns ≤ (s.step w c).cache.breakdowns := by
  cases c with
  | sync id gameweek =>
    rw [step, sync]
    cases s.fetch id w.link with
    | mk result link =>
      cases result with
      | error e => exact Nat.le_refl _
      | ok p =>
        dsimp only
        split
        · exact Nat.le_refl _
        · next e database _ =>
          let h : Shelf Memory := { w with link, database }.entryShelf
          have led : h.LeadsWithin (fun _ => True) (s.store.writeThrough (s.key id) e h) :=
            s.store.leads_set trivial e none h
          exact led.leads.breakdowns_le
  | find id =>
    let asked : Except SyncError Entry × Shelf Memory × Unit :=
      s.store.getOrLoad (s.key id) (fun () => (load w.database id, ())) w.entryShelf ()
    have led : w.entryShelf.LeadsWithin (fun _ => True) asked.2.1 :=
      s.store.leads_getOrLoad trivial _ w.entryShelf ()
    rw [step, find]
    dsimp only
    split <;> exact led.leads.breakdowns_le
  | findMany ids =>
    have led : w.entryShelf.LeadsWithin (fun _ => True) _ :=
      s.store.leads_getAllOrLoad (ids.map s.key)
        (fun missing () => (s.loadMany w.database (s.idsOf ids missing), ())) w.entryShelf ()
        fun _ _ _ _ _ => trivial
    exact led.leads.breakdowns_le
  | warmUp =>
    have led : w.entryShelf.LeadsWithin (fun _ => True) _ :=
      s.store.leads_warmUp (fun () => ((allIds w.database).bind (s.loadMany w.database), ()))
        w.entryShelf () fun _ _ _ _ => trivial
    exact led.leads.breakdowns_le
  | wait ms => exact Nat.le_refl _

theorem breakdowns_le_run (s : EntryService) (w : World Memory) (steps : List Step) :
    w.cache.breakdowns ≤ (s.run w steps).cache.breakdowns := by
  induction steps generalizing w with
  | nil => exact Nat.le_refl _
  | cons c steps ih => exact Nat.le_trans (s.breakdowns_le_step w c) (ih (s.step w c))

namespace Coherent

variable {s : EntryService} {ttl : Option Nat} (stores : s.store = storeOf s.env ttl)
  {w : World Memory}

theorem findEntry (h : s.Coherent w) (id : EntryId) :
    ∃ row?, w.database.findEntry id = .ok row? ∧ w.database.tables.findEntry id = .ok row? ∧
      ∀ e, row? = some e → e.id = id := by
  obtain ⟨row?, found, own⟩ := h.readable.findEntry id
  exact ⟨row?, by rw [findEntry_of_sound h.sound, found, stored], found, own⟩

theorem putEntryShelf (h : s.Coherent w) {shelf : Shelf Memory}
    (caches : s.Caches shelf.backend w.database.tables) : s.Coherent (w.putEntryShelf shelf) :=
  ⟨h.sound, h.readable, caches⟩

theorem putLink (h : s.Coherent w) (link : Link) : s.Coherent { w with link } :=
  ⟨h.sound, h.readable, h.caches⟩

/-- What is loaded of several ids: their rows, each with the key of its id. -/
theorem loadMany (h : s.Coherent w) (ids : List EntryId) :
    ∃ es : List Entry, s.loadMany w.database ids = .ok (es.map fun e => (s.key e.id, e)) ∧
      ∀ e, e ∈ es ↔ e.id ∈ ids ∧ w.database.tables.findEntry e.id = .ok (some e) := by
  obtain ⟨es, found, members⟩ := h.readable.findEntries ids
  refine ⟨es, ?_, members⟩
  rw [EntryService.loadMany, Database.findEntries, Database.ask, h.sound, found]
  rfl

section
include stores

theorem sync (clock : ∀ now, (s.env.timeOfDay now).HasPlainYear) (h : s.Coherent w) (id : EntryId)
    (gameweek : Option GameweekId)
    (returned : (s.sync id gameweek w).2.cache.breakdowns = w.cache.breakdowns) :
    s.Coherent (s.sync id gameweek w).2 := by
  rw [EntryService.sync] at returned ⊢
  cases fetched : s.fetch id w.link with
  | mk result link =>
    cases result with
    | error e => exact h.putLink link
    | ok p =>
      let e := p.toEntry gameweek (s.env.timeOfDay link.now)
      have own : e.id = id := fetch_id fetched
      have written : w.database.upsertEntry e =
          (.ok e, { w.database with tables := w.database.tables.upsertEntry e }) := by
        rw [Database.upsertEntry, Database.perform, h.sound]
        rfl
      simp only [e] at written own
      simp only [fetched, written] at returned ⊢
      refine ⟨h.sound, h.readable.upsertEntry (clock link.now), ?_⟩
      have reaches : w.cache.reaches link.now s.store.ttl = true :=
        (Memory.breakdowns_putMany_eq_iff [((s.key id).text, s.store.write link.now e)]).1 returned
      have caches := h.caches.upsertEntry stores (e := e) (clock link.now) reaches
      rw [own] at caches
      exact caches

theorem find (h : s.Coherent w) (id : EntryId) :
    s.Coherent (s.find id w).2 ∧
      ∃ row?, w.database.findEntry id = .ok row? ∧ (s.find id w).1 = .ok row? := by
  obtain ⟨row?, found, row, own⟩ := h.findEntry id
  have cached : s.Caches w.entryShelf.backend w.database.tables := h.caches
  obtain ⟨after, ofHit⟩ := cached.look (s.key id)
  rw [EntryService.find, Store.getOrLoad]
  cases looked : s.store.get (s.key id) w.entryShelf with
  | mk hit shelf =>
    rw [looked] at after ofHit
    cases hit with
    | some e =>
      refine ⟨h.putEntryShelf after, some e, ?_, rfl⟩
      rw [findEntry_of_sound h.sound, ofHit id e rfl rfl, stored]
    | none =>
      cases row? with
      | none =>
        simp only [load, found]
        exact ⟨h.putEntryShelf after, none, rfl, rfl⟩
      | some e =>
        simp only [load, found]
        refine ⟨h.putEntryShelf ?_, some e, rfl, rfl⟩
        have ownRow : w.database.tables.findEntry e.id = .ok (some e) := by rwa [own e rfl]
        have caches := after.put stores ownRow shelf.now s.store.ttl
        rw [own e rfl] at caches
        exact caches

theorem cacheMany (h : s.Coherent w) {es : List Entry}
    (rows : ∀ e ∈ es, w.database.tables.findEntry e.id = .ok (some e)) {shelf : Shelf Memory}
    (caches : s.Caches shelf.backend w.database.tables) :
    s.Coherent (w.putEntryShelf (s.store.cacheMany (es.map fun e => (s.key e.id, e)) shelf)) := by
  refine h.putEntryShelf ?_
  rw [Store.cacheMany]
  split
  · exact caches
  · rw [List.map_map]
    exact caches.putMany stores rows shelf.now s.store.ttl

theorem warmUp (h : s.Coherent w) : s.Coherent (s.warmUp w).2 := by
  have listed : allIds w.database = .ok w.database.tables.entryIds := by
    rw [allIds, Database.listIds, Database.ask, h.sound]
    rfl
  obtain ⟨es, loaded, members⟩ := h.loadMany w.database.tables.entryIds
  rw [EntryService.warmUp, Store.warmUp]
  simp only [listed, Except.bind, loaded]
  exact h.cacheMany stores (fun e member => ((members e).1 member).2) h.caches

theorem findMany (h : s.Coherent w) {row? : EntryId → Option Entry}
    (rows : ∀ id, w.database.tables.findEntry id = .ok (row? id)) (ids : List EntryId) :
    s.Coherent (s.findMany ids w).2 ∧ (s.findMany ids w).1 = .ok (ids.filterMap row?) := by
  have cached : s.Caches w.entryShelf.backend w.database.tables := h.caches
  have keyed : ∀ key ∈ (ids.map s.key).eraseDups, ∃ id, s.key id = key := by
    intro key member
    obtain ⟨id, -, same⟩ := List.mem_map.1 (List.mem_eraseDups.1 member)
    exact ⟨id, same⟩
  obtain ⟨caches, sifted⟩ := cached.getEach keyed
  have asked : ∀ id ∈ ids, s.key id ∈ (ids.map s.key).eraseDups := fun id member =>
    List.mem_eraseDups.2 (List.mem_map_of_mem member)
  rw [EntryService.findMany, Store.getAllOrLoad]
  generalize s.store.getEach (ids.map s.key).eraseDups w.entryShelf = sifting at *
  obtain ⟨⟨found, missing⟩, shelf⟩ := sifting
  have answer (es : List Entry)
      (right : ∀ e ∈ es, w.database.tables.findEntry e.id = .ok (some e))
      (whole : ∀ e, s.key e.id ∈ missing → row? e.id = some e → e ∈ es) :
      (ids.map s.key).filterMap (found.putAll (es.map fun e => (s.key e.id, e))).get? =
        ids.filterMap row? := by
    rw [List.filterMap_map]
    refine List.filterMap_congr fun id member => ?_
    exact sifted.get?_putAll h.readable rows right whole (asked id member)
  by_cases complete : missing.isEmpty
  · simp only [complete, if_true]
    have none : missing = [] := List.isEmpty_iff.1 complete
    exact ⟨h.putEntryShelf caches, congrArg Except.ok (answer [] (by simp) (by simp [none]))⟩
  · obtain ⟨es, loaded, members⟩ := h.loadMany (s.idsOf ids missing)
    have right : ∀ e ∈ es, w.database.tables.findEntry e.id = .ok (some e) :=
      fun e member => ((members e).1 member).2
    simp only [complete, loaded, Bool.false_eq_true, if_false]
    refine ⟨h.cacheMany stores right caches, congrArg Except.ok (answer es right ?_)⟩
    intro e lacks row
    refine (members e).2 ⟨(s.mem_idsOf ids missing e.id).2 ⟨?_, lacks⟩, by rw [rows, row]⟩
    obtain ⟨id, member, same⟩ := List.mem_map.1 (List.mem_eraseDups.1 (sifted.asked _ lacks))
    exact s.key_injective (congrArg CacheKey.text same) ▸ member

/-- No call makes the cache say something else than the durable store, unless it breaks down. -/
theorem step (clock : ∀ now, (s.env.timeOfDay now).HasPlainYear) (h : s.Coherent w) (c : Step)
    (returned : (s.step w c).cache.breakdowns = w.cache.breakdowns) :
    s.Coherent (s.step w c) := by
  cases c with
  | sync id gameweek => exact h.sync stores clock id gameweek returned
  | find id => exact (h.find stores id).1
  | findMany ids =>
    have each (id : EntryId) : ∃ row?, w.database.tables.findEntry id = .ok row? :=
      (h.readable.findEntry id).imp fun _ found => found.1
    choose row? rows using each
    exact (h.findMany stores rows ids).1
  | warmUp => exact h.warmUp stores
  | wait ms => exact h.putLink _

theorem run (clock : ∀ now, (s.env.timeOfDay now).HasPlainYear) (h : s.Coherent w)
    (steps : List Step) (returned : (s.run w steps).cache.breakdowns = w.cache.breakdowns) :
    s.Coherent (s.run w steps) := by
  induction steps generalizing w with
  | nil => exact h
  | cons c steps ih =>
    have first := s.breakdowns_le_step w c
    have rest := s.breakdowns_le_run (s.step w c) steps
    have same : (s.step w c).cache.breakdowns = w.cache.breakdowns :=
      Nat.le_antisymm (returned ▸ rest) first
    exact ih (h.step stores clock c same) (returned.trans same.symm)

end

end Coherent

theorem coherent_of_empty {s : EntryService} {w : World Memory}
    (sound : ∀ op, w.database.fails op = none) (readable : w.database.tables.Readable)
    (empty : w.cache.items = .empty) : s.Coherent w := by
  refine ⟨sound, readable, fun id v found => ?_⟩
  rw [empty] at found
  cases found

/-- From an empty cache on, after any calls one after another that did not break down and whatever
the remote interface answers: what is cached and has not expired is the stored row, looking an entry
up gives the stored row, and looking several up gives their rows. -/
theorem run_coherent (s : EntryService) {ttl : Option Nat} (stores : s.store = storeOf s.env ttl)
    (clock : ∀ now, (s.env.timeOfDay now).HasPlainYear) (w : World Memory)
    (sound : ∀ op, w.database.fails op = none) (readable : w.database.tables.Readable)
    (empty : w.cache.items = .empty) (steps : List Step)
    (returned : (s.run w steps).cache.breakdowns = w.cache.breakdowns) :
    ∃ row? : EntryId → Option Entry,
      (∀ id, (s.run w steps).database.findEntry id = .ok (row? id)) ∧
      (∀ id text, (s.run w steps).cache.lookup (s.run w steps).link.now (s.key id).text =
        some text → ∃ e, s.store.read text = some e ∧ row? id = some e) ∧
      (∀ id, (s.find id (s.run w steps)).1 = .ok (row? id)) ∧
      ∀ ids, (s.findMany ids (s.run w steps)).1 = .ok (ids.filterMap row?) := by
  have h : s.Coherent (s.run w steps) :=
    (coherent_of_empty sound readable empty).run stores clock steps returned
  have each (id : EntryId) :
      ∃ row?, (s.run w steps).database.tables.findEntry id = .ok row? :=
    (h.readable.findEntry id).imp fun _ found => found.1
  choose row? rows using each
  have stored (id : EntryId) : (s.run w steps).database.findEntry id = .ok (row? id) := by
    rw [findEntry_of_sound h.sound, rows]
    rfl
  refine ⟨row?, stored, ?_, ?_, fun ids => (h.findMany stores rows ids).2⟩
  · intro id text live
    obtain ⟨v, there, rfl⟩ := Memory.get?_of_lookup live
    obtain ⟨e, read, row⟩ := h.caches id v there
    exact ⟨e, read, Except.ok.inj ((rows id).symm.trans row)⟩
  · intro id
    obtain ⟨-, found, row, answer⟩ := h.find stores id
    rw [stored] at row
    exact Except.ok.inj row ▸ answer

/-- An entry that is stored and cached under its old name is renamed by a sync. The same answer is
the wrong one for another entry. -/
theorem run_coherent_renamed :
    let env : Surroundings := {
      transport := fun _ _ =>
        ⟨some (3, .answer 200 [] (some "\x7b\"id\":7,\"name\":\"Blues\"\x7d"))⟩
      timeOfDay := fun _ => .epoch }
    let s : EntryService := {
      client := {
        baseUrl := "https://host"
        policy := .ofConfig {}
        mode := .failFast
        timeouts := {}
        permits := 1 }
      env
      store := storeOf env (some 1000)
      scope := "league" }
    let old : Entry := {
      id := 7, name := "Reds", playerName := "", region := none, startedGameweek := none
      overallPoints := none, overallRank := none, bank := none, teamValue := none
      gameweek := none, updatedAt := .epoch }
    let new : Entry := { old with name := "Blues", gameweek := some 3 }
    let w : World Memory := {
      link := .start {} 0
      database := { tables := Tables.upsertEntry {} old }
      cache := {} }
    let final := s.run w [.find 7, .sync 7 (some 3), .sync 8 none, .wait 500]
    Timestamp.epoch.HasPlainYear ∧ w.database.tables.Readable ∧
      final.cache.breakdowns = w.cache.breakdowns ∧
      final.database.findEntry 7 = .ok (some new) ∧ (s.find 7 final).1 = .ok (some new) ∧
      (s.findMany [7, 8, 7] final).1 = .ok [new, new] := by
  intro env s old new w final
  have plain := Timestamp.hasPlainYear_epoch
  have readable : w.database.tables.Readable := Tables.readable_empty.upsertEntry plain
  have seven : final.database.findEntry 7 = .ok (some new) := by decide +kernel
  have eight : final.database.findEntry 8 = .ok none := by decide +kernel
  have returned : final.cache.breakdowns = w.cache.breakdowns := by decide +kernel
  obtain ⟨row?, rows, -, find, findMany⟩ := run_coherent s rfl (fun _ => plain) w (fun _ => rfl)
    readable rfl [.find 7, .sync 7 (some 3), .sync 8 none, .wait 500] returned
  have row7 : row? 7 = some new := Except.ok.inj ((rows 7).symm.trans seven)
  have row8 : row? 8 = none := Except.ok.inj ((rows 8).symm.trans eight)
  refine ⟨plain, readable, returned, seven, (find 7).trans (congrArg Except.ok row7), ?_⟩
  refine (findMany [7, 8, 7]).trans (congrArg Except.ok ?_)
  simp only [List.filterMap_cons, List.filterMap_nil, row7, row8]

end EntryService
end LeagueSync
