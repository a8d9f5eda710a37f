import LeagueSync.Proofs.EntryCoherence

/-!
# LeagueSync.Proofs.EntrySchedule

Calls on entries that run at once. A call can be interrupted wherever it waits: for the remote
interface, for the durable store and for the cache. A call that has a row and has not cached it yet
may be overtaken: if another call stores a newer row and caches it meanwhile, the older row is
cached last and stays. This is the only way in which the cache comes to say something else than the
durable store.

* `EntrySchedule.replay?_sync`, `EntrySchedule.replay?_find`: a call that nobody interrupts is
  `EntryService.sync` or `EntryService.find`.
* `EntrySchedule.Kept.step`, `EntrySchedule.Kept.replay`: what holds between the moves of a
  schedule.
* `EntrySchedule.cached_or_overtaken`: what is cached when all calls have ended.
* `EntrySchedule.late_reader_caches_old_row`: a reader that is overtaken.
-/

namespace LeagueSync

inductive EntryRequest where
  | sync (id : EntryId) (gameweek : Option GameweekId)
  | find (id : EntryId)

inductive EntryCall where
  /-- Waits for the remote interface. -/
  | fetching (id : EntryId) (gameweek : Option GameweekId)
  /-- Waits for the durable store, to write an entry. -/
  | storing (id : EntryId) (e : Entry)
  /-- Waits for the cache, to look an entry up. -/
  | looking (id : EntryId)
  /-- Waits for the durable store, to look an entry up. -/
  | loading (id : EntryId)
  /-- Has a row and waits for the cache, to write it. -/
  | caching (id : EntryId) (e : Entry)
  | ended (answer : Except SyncError (Option Entry))
  deriving DecidableEq

namespace EntryCall

def ofRequest : EntryRequest → EntryCall
  | .sync id gameweek => fetching id gameweek
  | .find id => looking id

def isEnded : EntryCall → Bool
  | ended _ => true
  | _ => false

end EntryCall

/-- What a call did with the row of an id. -/
inductive EntryNote where
  | loaded (call : Nat) (id : EntryId) (e : Entry)
  | stored (call : Nat) (id : EntryId) (e : Entry)
  | cached (call : Nat) (id : EntryId) (e : Entry)
  deriving DecidableEq

inductive EntryEvent where
  /-- The remote interface answers a call. The answer has been checked against the id, and the link
  may have been used by others in the meantime. -/
  | answer (call : Nat) (result : Except SyncError EntryPayload) (link : Link)
  /-- A call has its turn at the durable store or the cache. -/
  | turn (call : Nat)
  | wait (ms : Nat)

/-- Calls that run at once, and the account of what they did so far. -/
structure EntrySchedule where
  world : World Memory
  calls : List EntryCall
  log : List EntryNote := []

namespace EntrySchedule

def start (w : World Memory) (requests : List EntryRequest) : EntrySchedule where
  world := w
  calls := requests.map .ofRequest

def put (v : EntrySchedule) (i : Nat) (c : EntryCall) : EntrySchedule :=
  { v with calls := v.calls.set i c }

def note (v : EntrySchedule) (n : EntryNote) : EntrySchedule :=
  { v with log := v.log ++ [n] }

/-- A sync goes on with the answer of the remote interface. -/
def answer? (s : EntryService) (v : EntrySchedule) (i : Nat) (id : EntryId)
    (gameweek : Option GameweekId) (link : Link) :
    Except SyncError EntryPayload → Option EntrySchedule
  | .error e => some ({ v with world := { v.world with link } }.put i (.ended (.error e)))
  | .ok p =>
    if p.id = id then
      let e := p.toEntry gameweek (s.env.timeOfDay link.now)
      some ({ v with world := { v.world with link } }.put i (.storing id e))
    else none

/-- A call caches the row that it has, and ends. -/
def cache (s : EntryService) (v : EntrySchedule) (i : Nat) (id : EntryId) (e : Entry) :
    EntrySchedule :=
  let h := s.store.writeThrough (s.key id) e v.world.entryShelf
  ({ v with world := v.world.putEntryShelf h }.put i (.ended (.ok (some e)))).note (.cached i id e)

/-- The answer of a look-up that did not get a row. -/
def withoutRow : SyncError → Except SyncError (Option Entry)
  | .notFound _ => .ok none
  | e => .error e

/-- A call makes use of the durable store or the cache. -/
def turn? (s : EntryService) (v : EntrySchedule) (i : Nat) : EntryCall → Option EntrySchedule
  | .storing id e =>
    match v.world.database.upsertEntry e with
    | (.error e, database) =>
      some ({ v with world := { v.world with database } }.put i (.ended (.error (.database e))))
    | (.ok e, database) =>
      some (({ v with world := { v.world with database } }.put i (.caching id e)).note
        (.stored i id e))
  | .looking id =>
    match s.store.get (s.key id) v.world.entryShelf with
    | (some e, h) =>
      some ({ v with world := v.world.putEntryShelf h }.put i (.ended (.ok (some e))))
    | (none, h) =>
      some ({ v with world := v.world.putEntryShelf h.countLoad }.put i (.loading id))
  | .loading id =>
    match EntryService.load v.world.database id with
    | .ok e => some ((v.put i (.caching id e)).note (.loaded i id e))
    | .error fault => some (v.put i (.ended (withoutRow fault)))
  | .caching id e => some (v.cache s i id e)
  | _ => none

def step? (s : EntryService) (v : EntrySchedule) : EntryEvent → Option EntrySchedule
  | .answer i result link =>
    match v.calls[i]? with
    | some (.fetching id gameweek) => v.answer? s i id gameweek link result
    | _ => none
  | .turn i => v.calls[i]?.bind (v.turn? s i)
  | .wait ms => some { v with world := { v.world with link := v.world.link.advance ms } }

def replay? (s : EntryService) (v : EntrySchedule) : List EntryEvent → Option EntrySchedule
  | [] => some v
  | e :: events => (v.step? s e).bind (replay? s · events)

variable {s : EntryService} {v : EntrySchedule} {i : Nat} {id : EntryId}

theorem replay?_append {u w : EntrySchedule} {first rest : List EntryEvent}
    (before : v.replay? s first = some u) (after : u.replay? s rest = some w) :
    v.replay? s (first ++ rest) = some w := by
  induction first generalizing v with
  | nil =>
    cases before
    exact after
  | cons event first ih =>
    obtain ⟨v', moved, before⟩ := Option.bind_eq_some_iff.1 before
    rw [List.cons_append, replay?, moved, Option.bind_some, ih before]

/-! ## Calls that nobody interrupts -/

theorem calls_put {c : EntryCall} (h : v.calls[i]? = some c) (d : EntryCall) :
    (v.put i d).calls[i]? = some d :=
  List.getElem?_set_self (List.getElem?_eq_some_iff.1 h).1

theorem replay?_turn {c : EntryCall} {u : EntrySchedule} (h : v.calls[i]? = some c)
    (moved : v.turn? s i c = some u) (events : List EntryEvent) :
    v.replay? s (.turn i :: events) = u.replay? s events := by
  rw [replay?, step?, h, Option.bind_some, moved, Option.bind_some]

theorem replay?_answer {gameweek : Option GameweekId} {result : Except SyncError EntryPayload}
    {link : Link} {u : EntrySchedule} (h : v.calls[i]? = some (.fetching id gameweek))
    (answered : v.answer? s i id gameweek link result = some u) (events : List EntryEvent) :
    v.replay? s (.answer i result link :: events) = u.replay? s events := by
  rw [replay?, step?, h]
  simp only [answered, Option.bind_some]

/-- When nobody interrupts a sync, it is the sync of the service. -/
theorem replay?_sync {gameweek : Option GameweekId}
    (h : v.calls[i]? = some (.fetching id gameweek)) :
    ∃ events u, v.replay? s events = some u ∧ u.world = (s.sync id gameweek v.world).2 ∧
      u.calls = v.calls.set i (.ended ((s.sync id gameweek v.world).1.map some)) := by
  rw [EntryService.sync]
  cases fetched : s.fetch id v.world.link with
  | mk result link =>
    cases result with
    | error e =>
      let u := { v with world := { v.world with link } }.put i (.ended (.error e))
      exact ⟨[.answer i (.error e) link], u, replay?_answer h rfl [], rfl, rfl⟩
    | ok p =>
      let e := p.toEntry gameweek (s.env.timeOfDay link.now)
      let u := { v with world := { v.world with link } }.put i (.storing id e)
      have answered : v.answer? s i id gameweek link (.ok p) = some u := by
        rw [answer?, if_pos (EntryService.fetch_id fetched)]
      have storing : u.calls[i]? = some (.storing id e) := calls_put h _
      cases written : v.world.database.upsertEntry e with
      | mk result database =>
        simp only [e] at written
        cases result with
        | error fault =>
          let u' := { u with world := { u.world with database } }.put i
            (.ended (.error (.database fault)))
          have moved : u.turn? s i (.storing id e) = some u' := by
            simp only [turn?, u, put, written, e, u']
          refine ⟨[.answer i (.ok p) link, .turn i], u', ?_, ?_, ?_⟩
          · rw [replay?_answer h answered, replay?_turn storing moved, replay?]
          · simp only [written, u', u, put]
          · simp only [written, u', u, put, List.set_set, Except.map]
        | ok row =>
          let u' := ({ u with world := { u.world with database } }.put i (.caching id row)).note
            (.stored i id row)
          have moved : u.turn? s i (.storing id e) = some u' := by
            simp only [turn?, u, put, written, e, u']
          have caching : u'.calls[i]? = some (.caching id row) := calls_put storing _
          refine ⟨[.answer i (.ok p) link, .turn i, .turn i], u'.cache s i id row, ?_, ?_, ?_⟩
          · rw [replay?_answer h answered, replay?_turn storing moved, replay?_turn caching rfl,
              replay?]
          · simp only [written, cache, u', u, put, note]
          · simp only [written, cache, u', u, put, note, List.set_set, Except.map]

/-- When nobody interrupts a look-up, it is the look-up of the service. -/
theorem replay?_find (h : v.calls[i]? = some (.looking id)) :
    ∃ events u, v.replay? s events = some u ∧ u.world = (s.find id v.world).2 ∧
      u.calls = v.calls.set i (.ended (s.find id v.world).1) := by
  rw [EntryService.find, Store.getOrLoad]
  cases looked : s.store.get (s.key id) v.world.entryShelf with
  | mk hit shelf =>
    cases hit with
    | some e =>
      let u := { v with world := v.world.putEntryShelf shelf }.put i (.ended (.ok (some e)))
      have moved : v.turn? s i (.looking id) = some u := by simp only [turn?, looked, u]
      exact ⟨[.turn i], u, replay?_turn h moved [], rfl, rfl⟩
    | none =>
      let u := { v with world := v.world.putEntryShelf shelf.countLoad }.put i (.loading id)
      have moved : v.turn? s i (.looking id) = some u := by simp only [turn?, looked, u]
      have loading : u.calls[i]? = some (.loading id) := calls_put h _
      have now : shelf.countLoad.now = v.world.link.now := by
        obtain ⟨stats, got⟩ := Store.get_eq s.store (s.key id) v.world.entryShelf
        exact congrArg (fun r => r.2.now) (looked.symm.trans got)
      cases loaded : EntryService.load v.world.database id with
      | error fault =>
        let u' := u.put i (.ended (withoutRow fault))
        have moved' : u.turn? s i (.loading id) = some u' := by
          simp only [turn?, u, put, World.putEntryShelf, loaded, u']
        refine ⟨[.turn i, .turn i], u', ?_, ?_, ?_⟩
        · rw [replay?_turn h moved, replay?_turn loading moved', replay?]
        · cases fault <;> rfl
        · simp only [u', u, put, List.set_set]
          cases fault <;> rfl
      | ok row =>
        let u' := (u.put i (.caching id row)).note (.loaded i id row)
        have moved' : u.turn? s i (.loading id) = some u' := by
          simp only [turn?, u, put, World.putEntryShelf, loaded, u']
        have caching : u'.calls[i]? = some (.caching id row) := calls_put loading _
        refine ⟨[.turn i, .turn i, .turn i], u'.cache s i id row, ?_, ?_, ?_⟩
        · rw [replay?_turn h moved, replay?_turn loading moved', replay?_turn caching rfl, replay?]
        · simp only [cache, note, put, u', u, World.entryShelf_putEntryShelf _ _ now]
          rfl
        · simp only [cache, note, put, u', u, List.set_set]

/-! ## What a move can do -/

def Row (v : EntrySchedule) (id : EntryId) (e : Entry) : Prop :=
  v.world.database.tables.findEntry id = .ok (some e)

/-- Whether a call has this row of the id and has not cached it yet. -/
def HasRow (v : EntrySchedule) (i : Nat) (id : EntryId) (e : Entry) : Prop :=
  v.calls[i]? = some (.caching id e)

/-- Whether a call is about to write this row of the id. -/
def WillStore (v : EntrySchedule) (i : Nat) (id : EntryId) (e : Entry) : Prop :=
  v.calls[i]? = some (.storing id e)

/-- What a move does. -/
inductive Moves (s : EntryService) (v : EntrySchedule) : EntrySchedule → Prop where
  /-- No call gets a row or caches one. -/
  | quiet {u : EntrySchedule} (database : u.world.database = v.world.database)
      (cache : ∀ k item, u.world.cache.items.get? k = some item →
        v.world.cache.items.get? k = some item)
      (breakdowns : u.world.cache.breakdowns = v.world.cache.breakdowns)
      (log : u.log = v.log)
      (hasRow : ∀ i id e, u.HasRow i id e ↔ v.HasRow i id e)
      (willStore : ∀ i id e, u.WillStore i id e → v.WillStore i id e ∨
        e.id = id ∧ e.updatedAt.HasPlainYear ∧ e.OnClock) : Moves s v u
  | stored {u : EntrySchedule} {i : Nat} {id : EntryId} {e : Entry}
      (call : v.WillStore i id e)
      (tables : u.world.database.tables = v.world.database.tables.upsertEntry e)
      (fails : u.world.database.fails = v.world.database.fails)
      (cache : u.world.cache = v.world.cache) (log : u.log = v.log ++ [.stored i id e])
      (calls : u.calls = v.calls.set i (.caching id e)) : Moves s v u
  | loaded {i : Nat} {id : EntryId} {e : Entry} (call : v.calls[i]? = some (.loading id))
      (row : v.Row id e) : Moves s v ((v.put i (.caching id e)).note (.loaded i id e))
  | cached {i : Nat} {id : EntryId} {e : Entry} (call : v.HasRow i id e) :
      Moves s v (v.cache s i id e)

theorem row_of_load {e : Entry} (loaded : EntryService.load v.world.database id = .ok e) :
    v.Row id e := by
  rw [EntryService.load] at loaded
  split at loaded
  next _ found =>
    cases loaded
    rw [Database.findEntry, Database.ask] at found
    split at found
    · cases found
    · cases row : v.world.database.tables.findEntry id with
      | error fault =>
        rw [row] at found
        cases found
      | ok row? =>
        rw [row] at found
        cases found
        exact row
  all_goals cases loaded

theorem Moves.put {w : World Memory} {c d : EntryCall} (database : w.database = v.world.database)
    (cache : ∀ k item, w.cache.items.get? k = some item → v.world.cache.items.get? k = some item)
    (breakdowns : w.cache.breakdowns = v.world.cache.breakdowns)
    (before : v.calls[i]? = some c) (waits : ∀ id e, c ≠ .caching id e)
    (without : ∀ id e, d ≠ .caching id e)
    (storing : ∀ id e, d = .storing id e → e.id = id ∧ e.updatedAt.HasPlainYear ∧ e.OnClock) :
    Moves s v ({ v with world := w }.put i d) := by
  have inside : i < v.calls.length := (List.getElem?_eq_some_iff.1 before).1
  refine .quiet database cache breakdowns rfl ?_ ?_
  · intro j id e
    by_cases same : i = j
    · subst same
      simp [HasRow, EntrySchedule.put, List.getElem?_set_self inside, before, waits, without]
    · simp [HasRow, EntrySchedule.put, List.getElem?_set_ne same]
  · intro j id e there
    by_cases same : i = j
    · subst same
      simp only [WillStore, EntrySchedule.put, List.getElem?_set_self inside,
        Option.some.injEq] at there
      exact .inr (storing id e there)
    · simp only [WillStore, EntrySchedule.put, List.getElem?_set_ne same] at there
      exact .inl there

theorem step?_moves (clock : ∀ now, (s.env.timeOfDay now).HasPlainYear) {event : EntryEvent}
    {u : EntrySchedule} (moved : v.step? s event = some u) : Moves s v u := by
  cases event with
  | wait ms =>
    cases moved
    exact .quiet rfl (fun _ _ h => h) rfl rfl (fun _ _ _ => .rfl) fun _ _ _ h => .inl h
  | answer i result link =>
    rw [step?] at moved
    split at moved
    next id gameweek there =>
      cases result with
      | error e =>
        cases moved
        exact .put rfl (fun _ _ h => h) rfl there (by simp) (by simp) (by simp)
      | ok p =>
        rw [answer?] at moved
        split at moved
        next own =>
          cases moved
          refine .put rfl (fun _ _ h => h) rfl there (by simp) (by simp) ?_
          rintro _ _ ⟨⟩
          exact ⟨own, clock link.now, s.env.onClock link.now⟩
        next => cases moved
    next => cases moved
  | turn i =>
    obtain ⟨c, there, moved⟩ := Option.bind_eq_some_iff.1 moved
    cases c with
    | fetching id gameweek => cases moved
    | ended answer => cases moved
    | storing id e =>
      simp only [turn?, Database.upsertEntry, Database.perform] at moved
      cases failed : v.world.database.fails .upsertEntry with
      | some fault =>
        rw [failed] at moved
        cases moved
        exact .put rfl (fun _ _ h => h) rfl there (by simp) (by simp) (by simp)
      | none =>
        rw [failed] at moved
        cases moved
        exact .stored there rfl rfl rfl rfl rfl
    | looking id =>
      obtain ⟨stats, got⟩ := Store.get_eq s.store (s.key id) v.world.entryShelf
      rw [turn?] at moved
      cases looked : s.store.get (s.key id) v.world.entryShelf with
      | mk hit shelf =>
        rw [looked] at moved
        have cache : shelf.backend = _ := congrArg (fun r => r.2.backend) (looked.symm.trans got)
        have fewer (k : String) (item : Stored) (there : shelf.backend.items.get? k = some item) :
            v.world.cache.items.get? k = some item := by
          rw [cache] at there
          exact Memory.get?_of_get there
        have breakdowns : shelf.backend.breakdowns = v.world.cache.breakdowns :=
          (congrArg Memory.breakdowns cache).trans (Memory.breakdowns_get ..)
        cases hit with
        | some e =>
          cases moved
          exact .put rfl fewer breakdowns there (by simp) (by simp) (by simp)
        | none =>
          cases moved
          exact .put rfl fewer breakdowns there (by simp) (by simp) (by simp)
    | loading id =>
      rw [turn?] at moved
      cases loaded : EntryService.load v.world.database id with
      | error fault =>
        rw [loaded] at moved
        cases moved
        exact .put rfl (fun _ _ h => h) rfl there (by simp) (by simp) (by simp)
      | ok e =>
        rw [loaded] at moved
        cases moved
        exact .loaded there (row_of_load loaded)
    | caching id e =>
      cases moved
      exact .cached there

theorem Moves.breakdowns_le {u : EntrySchedule} (moves : Moves s v u) :
    v.world.cache.breakdowns ≤ u.world.cache.breakdowns := by
  cases moves with
  | quiet database cache breakdowns log hasRow willStore => exact Nat.le_of_eq breakdowns.symm
  | stored call tables fails cache log calls => exact Nat.le_of_eq (congrArg _ cache.symm)
  | loaded call row => exact Nat.le_refl _
  | @cached i id e call =>
    exact v.world.cache.breakdowns_le_putMany v.world.link.now
      [((s.key id).text, s.store.write v.world.link.now e)] s.store.ttl

theorem breakdowns_le_replay? (clock : ∀ now, (s.env.timeOfDay now).HasPlainYear)
    {events : List EntryEvent} {u : EntrySchedule} (ran : v.replay? s events = some u) :
    v.world.cache.breakdowns ≤ u.world.cache.breakdowns := by
  induction events generalizing v with
  | nil =>
    cases ran
    exact Nat.le_refl _
  | cons event events ih =>
    obtain ⟨w, moved, rest⟩ := Option.bind_eq_some_iff.1 ran
    exact Nat.le_trans (step?_moves clock moved).breakdowns_le (ih rest)

/-! ## What is kept -/

/-- Whether the note says that the call loaded or stored this row of the id. -/
def Gives (i : Nat) (id : EntryId) (e : Entry) (n : EntryNote) : Prop :=
  n = .loaded i id e ∨ n = .stored i id e

/-- How things stand for a call that has this row: it is still the row of the id, or the call that
made another one the row is about to cache that, or has cached it already. -/
def Held (v : EntrySchedule) (i : Nat) (id : EntryId) (e : Entry) : Prop :=
  ∃ n ∈ v.log, Gives i id e n ∧ (v.Row id e ∨
    (∃ j e', j ≠ i ∧ [n, .stored j id e'].Sublist v.log ∧ v.HasRow j id e' ∧ v.Row id e') ∨
    ∃ j e', j ≠ i ∧ [n, .stored j id e', .cached j id e'].Sublist v.log)

/-- A call cached this row although another call had stored and cached one since it got it. -/
def Outdated (log : List EntryNote) (id : EntryId) (e : Entry) : Prop :=
  ∃ i j e' n, j ≠ i ∧ Gives i id e n ∧
    [n, .stored j id e', .cached j id e', .cached i id e].Sublist log

/-- How things stand for a row that is cached. -/
def CachedAs (v : EntrySchedule) (id : EntryId) (e : Entry) : Prop :=
  v.Row id e ∨ (∃ j e', v.HasRow j id e' ∧ v.Row id e') ∨ Outdated v.log id e

/-- What holds between the moves of a schedule. -/
structure Kept (s : EntryService) (v : EntrySchedule) : Prop where
  sound : ∀ op, v.world.database.fails op = none
  readable : v.world.database.tables.Readable
  stores : ∀ i id e, v.WillStore i id e → e.id = id ∧ e.updatedAt.HasPlainYear ∧ e.OnClock
  held : ∀ i id e, v.HasRow i id e → e.id = id ∧ e.OnClock ∧ v.Held i id e
  cached : ∀ id item, v.world.cache.items.get? (s.key id).text = some item →
    ∃ e, s.store.read item.data = some e ∧ v.CachedAs id e

/-- A move that leaves the row of an id as it is, and the calls that have one. -/
structure Grows (v u : EntrySchedule) (id : EntryId) : Prop where
  row : ∀ e, v.Row id e → u.Row id e
  hasRow : ∀ i e, v.HasRow i id e → u.HasRow i id e
  log : v.log.Sublist u.log

theorem Held.grows {u : EntrySchedule} {e : Entry} (h : v.Held i id e) (grows : Grows v u id) :
    u.Held i id e := by
  obtain ⟨n, member, gives, stands⟩ := h
  refine ⟨n, grows.log.subset member, gives, ?_⟩
  rcases stands with row | ⟨j, e', other, order, hasRow, row⟩ | ⟨j, e', other, order⟩
  · exact .inl (grows.row e row)
  · exact .inr (.inl ⟨j, e', other, order.trans grows.log, grows.hasRow j e' hasRow,
      grows.row e' row⟩)
  · exact .inr (.inr ⟨j, e', other, order.trans grows.log⟩)

theorem CachedAs.grows {u : EntrySchedule} {e : Entry} (h : v.CachedAs id e)
    (grows : Grows v u id) : u.CachedAs id e := by
  rcases h with row | ⟨j, e', hasRow, row⟩ | ⟨i, j, e', n, other, gives, order⟩
  · exact .inl (grows.row e row)
  · exact .inr (.inl ⟨j, e', grows.hasRow j e' hasRow, grows.row e' row⟩)
  · exact .inr (.inr ⟨i, j, e', n, other, gives, order.trans grows.log⟩)

theorem getElem?_set_cases {calls : List EntryCall} {j k : Nat} {c d : EntryCall}
    (h : (calls.set j d)[k]? = some c) : j = k ∧ d = c ∨ j ≠ k ∧ calls[k]? = some c := by
  by_cases same : j = k
  · subst same
    have inside : j < calls.length := by
      have := (List.getElem?_eq_some_iff.1 h).1
      rwa [List.length_set] at this
    rw [List.getElem?_set_self inside] at h
    exact .inl ⟨rfl, Option.some.inj h⟩
  · rw [List.getElem?_set_ne same] at h
    exact .inr ⟨same, h⟩

theorem getElem?_set_of_ne {calls : List EntryCall} {j k : Nat} {c d b : EntryCall}
    (h : calls[k]? = some c) (before : calls[j]? = some b) (other : b ≠ c) :
    (calls.set j d)[k]? = some c := by
  have apart : j ≠ k := by
    rintro rfl
    exact other (Option.some.inj (before.symm.trans h))
  rw [List.getElem?_set_ne apart, h]

namespace Kept

variable {e : Entry}

theorem quiet (h : Kept s v) {u : EntrySchedule} (database : u.world.database = v.world.database)
    (cache : ∀ k item, u.world.cache.items.get? k = some item →
      v.world.cache.items.get? k = some item)
    (log : u.log = v.log) (hasRow : ∀ i id e, u.HasRow i id e ↔ v.HasRow i id e)
    (willStore : ∀ i id e, u.WillStore i id e → v.WillStore i id e ∨
      e.id = id ∧ e.updatedAt.HasPlainYear ∧ e.OnClock) : Kept s u := by
  have grows (id : EntryId) : Grows v u id :=
    ⟨fun e row => by rwa [Row, database], fun i e => (hasRow i id e).2, log ▸ .refl _⟩
  refine ⟨?_, ?_, ?_, ?_, ?_⟩
  · rw [database]
    exact h.sound
  · rw [database]
    exact h.readable
  · intro i id e will
    exact (willStore i id e will).elim (h.stores i id e) fun own => own
  · intro i id e has
    obtain ⟨own, onClock, held⟩ := h.held i id e ((hasRow i id e).1 has)
    exact ⟨own, onClock, held.grows (grows id)⟩
  · intro id item there
    obtain ⟨e, read, cached⟩ := h.cached id item (cache _ _ there)
    exact ⟨e, read, cached.grows (grows id)⟩

theorem loaded (h : Kept s v) (call : v.calls[i]? = some (.loading id)) (row : v.Row id e) :
    Kept s ((v.put i (.caching id e)).note (.loaded i id e)) := by
  have grows (id' : EntryId) : Grows v ((v.put i (.caching id e)).note (.loaded i id e)) id' :=
    ⟨fun _ row => row, fun _ _ has => getElem?_set_of_ne has call (by simp),
      List.sublist_append_left _ _⟩
  refine ⟨h.sound, h.readable, ?_, ?_, ?_⟩
  · intro j id' e' will
    rcases getElem?_set_cases will with ⟨-, ⟨⟩⟩ | ⟨-, before⟩
    exact h.stores j id' e' before
  · intro j id' e' has
    rcases getElem?_set_cases has with ⟨rfl, same⟩ | ⟨-, before⟩
    · cases same
      exact ⟨h.readable.id_of_findEntry row, Tables.onClock_of_findEntry row, .loaded i id e,
        by simp [note], .inl rfl, .inl row⟩
    · obtain ⟨own, onClock, held⟩ := h.held j id' e' before
      exact ⟨own, onClock, held.grows (grows id')⟩
  · intro id' item there
    obtain ⟨e', read, cached⟩ := h.cached id' item there
    exact ⟨e', read, cached.grows (grows id')⟩

theorem stored (h : Kept s v) {u : EntrySchedule} (call : v.WillStore i id e)
    (tables : u.world.database.tables = v.world.database.tables.upsertEntry e)
    (fails : u.world.database.fails = v.world.database.fails)
    (cache : u.world.cache = v.world.cache) (log : u.log = v.log ++ [.stored i id e])
    (calls : u.calls = v.calls.set i (.caching id e)) : Kept s u := by
  obtain ⟨rfl, plain, onClock⟩ := h.stores i id e call
  have inside : i < v.calls.length := (List.getElem?_eq_some_iff.1 call).1
  have hasRow : u.HasRow i e.id e := by
    rw [HasRow, calls, List.getElem?_set_self inside]
  have row : u.Row e.id e := by
    rw [Row, tables, Tables.findEntry_upsertEntry _ plain, if_pos rfl, onClock.shown]
  have grows {id : EntryId} (apart : id ≠ e.id) : Grows v u id := by
    refine ⟨fun e' row => ?_, fun j e' has => ?_, log ▸ List.sublist_append_left _ _⟩
    · rwa [Row, tables, Tables.findEntry_upsertEntry _ plain, if_neg apart]
    · rw [HasRow, calls]
      exact getElem?_set_of_ne has call (by simp)
  refine ⟨by rw [fails]; exact h.sound, by rw [tables]; exact h.readable.upsertEntry plain, ?_, ?_,
    ?_⟩
  · intro j id' e' will
    rw [WillStore, calls] at will
    rcases getElem?_set_cases will with ⟨-, ⟨⟩⟩ | ⟨-, before⟩
    exact h.stores j id' e' before
  · intro j id' e' has
    rw [HasRow, calls] at has
    rcases getElem?_set_cases has with ⟨rfl, same⟩ | ⟨apart, before⟩
    · cases same
      exact ⟨rfl, onClock, .stored i e.id e, by simp [log], .inr rfl, .inl row⟩
    · obtain ⟨own, clocked, held⟩ := h.held j id' e' before
      refine ⟨own, clocked, ?_⟩
      by_cases same : id' = e.id
      · -- the call that has just stored a row has not cached it yet
        obtain ⟨n, member, gives, -⟩ := held
        subst same
        refine ⟨n, by simp [log, member], gives, .inr (.inl ⟨i, e, apart, ?_, hasRow, row⟩)⟩
        rw [log]
        exact (List.singleton_sublist.2 member).append (.refl [_])
      · exact held.grows (grows same)
  · intro id' item there
    rw [cache] at there
    obtain ⟨e', read, cached⟩ := h.cached id' item there
    refine ⟨e', read, ?_⟩
    by_cases same : id' = e.id
    · subst same
      exact .inr (.inl ⟨i, e, hasRow, row⟩)
    · exact cached.grows (grows same)

/-- Of the calls that have a row, the others still have theirs when one has cached its own. -/
theorem hasRow_cache (call : v.HasRow i id e) {j : Nat} {id' : EntryId} {e' : Entry}
    (has : v.HasRow j id' e') :
    (v.cache s i id e).HasRow j id' e' ∨ j = i ∧ id' = id ∧ e' = e := by
  by_cases same : i = j
  · subst same
    cases call.symm.trans has
    exact .inr ⟨rfl, rfl, rfl⟩
  · exact .inl ((List.getElem?_set_ne same).trans has)

theorem cache {ttl : Option Nat} (stores : s.store = EntryService.storeOf s.env ttl)
    (h : Kept s v) (call : v.HasRow i id e)
    (returned : (v.cache s i id e).world.cache.breakdowns = v.world.cache.breakdowns) :
    Kept s (v.cache s i id e) := by
  have reaches : v.world.cache.reaches v.world.link.now s.store.ttl = true :=
    (Memory.breakdowns_putMany_eq_iff
      [((s.key id).text, s.store.write v.world.link.now e)]).1 returned
  have later {notes : List EntryNote} (order : notes.Sublist v.log) :
      notes.Sublist (v.cache s i id e).log := order.trans (List.sublist_append_left _ _)
  have then_cached {notes : List EntryNote} (order : notes.Sublist v.log) :
      (notes ++ [EntryNote.cached i id e]).Sublist (v.cache s i id e).log := order.append (.refl _)
  refine ⟨h.sound, h.readable, ?_, ?_, ?_⟩
  · intro j id' e' will
    rcases getElem?_set_cases will with ⟨-, ⟨⟩⟩ | ⟨-, before⟩
    exact h.stores j id' e' before
  · intro j id' e' has
    rcases getElem?_set_cases has with ⟨-, ⟨⟩⟩ | ⟨-, before⟩
    obtain ⟨own, onClock, n, member, gives, stands⟩ := h.held j id' e' before
    refine ⟨own, onClock, n, List.mem_append_left _ member, gives, ?_⟩
    rcases stands with row | ⟨k, e'', other, order, hasRow, row⟩ | ⟨k, e'', other, order⟩
    · exact .inl row
    · rcases hasRow_cache (s := s) call hasRow with still | ⟨rfl, rfl, rfl⟩
      · exact .inr (.inl ⟨k, e'', other, later order, still, row⟩)
      · exact .inr (.inr ⟨k, e'', other, then_cached order⟩)
    · exact .inr (.inr ⟨k, e'', other, later order⟩)
  · intro id' item there
    have there : (v.world.cache.put v.world.link.now (s.key id).text _ s.store.ttl).items.get?
        (s.key id').text = some item := there
    rw [Memory.put, if_pos reaches, Table.get?_put] at there
    by_cases same : id' = id
    · subst same
      rw [if_pos rfl] at there
      cases there
      obtain ⟨own, onClock, n, member, gives, stands⟩ := h.held i id' e call
      have read := EntryService.read_write stores e v.world.link.now
      rw [onClock.shown] at read
      refine ⟨e, read, ?_⟩
      rcases stands with row | ⟨j, e', other, order, hasRow, row⟩ | ⟨j, e', other, order⟩
      · exact .inl row
      · rcases hasRow_cache (s := s) call hasRow with still | ⟨self, -, -⟩
        · exact .inr (.inl ⟨j, e', still, row⟩)
        · exact absurd self other
      · exact .inr (.inr ⟨i, j, e', n, other, gives, then_cached order⟩)
    · rw [if_neg fun key => same (s.key_injective key)] at there
      obtain ⟨e', read, cached⟩ := h.cached id' item there
      refine ⟨e', read, ?_⟩
      rcases cached with row | ⟨j, e'', hasRow, row⟩ | ⟨k, j, e'', n, other, gives, order⟩
      · exact .inl row
      · rcases hasRow_cache (s := s) call hasRow with still | ⟨-, key, -⟩
        · exact .inr (.inl ⟨j, e'', still, row⟩)
        · exact absurd key same
      · exact .inr (.inr ⟨k, j, e'', n, other, gives, later order⟩)

theorem step {ttl : Option Nat} (stores : s.store = EntryService.storeOf s.env ttl)
    (clock : ∀ now, (s.env.timeOfDay now).HasPlainYear) (h : Kept s v) {event : EntryEvent}
    {u : EntrySchedule} (moved : v.step? s event = some u)
    (returned : u.world.cache.breakdowns = v.world.cache.breakdowns) : Kept s u := by
  cases step?_moves clock moved with
  | quiet database cache breakdowns log hasRow willStore =>
    exact h.quiet database cache log hasRow willStore
  | stored call tables fails cache log calls => exact h.stored call tables fails cache log calls
  | loaded call row => exact h.loaded call row
  | cached call => exact h.cache stores call returned

theorem replay {ttl : Option Nat} (stores : s.store = EntryService.storeOf s.env ttl)
    (clock : ∀ now, (s.env.timeOfDay now).HasPlainYear) (h : Kept s v) {events : List EntryEvent}
    {u : EntrySchedule} (ran : v.replay? s events = some u)
    (returned : u.world.cache.breakdowns = v.world.cache.breakdowns) : Kept s u := by
  induction events generalizing v with
  | nil =>
    cases ran
    exact h
  | cons event events ih =>
    obtain ⟨w, moved, rest⟩ := Option.bind_eq_some_iff.1 ran
    have first := (step?_moves clock moved).breakdowns_le
    have same : w.world.cache.breakdowns = v.world.cache.breakdowns :=
      Nat.le_antisymm (returned ▸ breakdowns_le_replay? clock rest) first
    exact ih (h.step stores clock moved same) rest (returned.trans same.symm)

theorem start {w : World Memory} (coherent : s.Coherent w) (requests : List EntryRequest) :
    Kept s (.start w requests) := by
  have waits {j : Nat} {c : EntryCall} (there : (requests.map EntryCall.ofRequest)[j]? = some c) :
      (∀ id e, c ≠ .storing id e) ∧ ∀ id e, c ≠ .caching id e := by
    rw [List.getElem?_map] at there
    obtain ⟨request, -, rfl⟩ := Option.map_eq_some_iff.1 there
    cases request <;> simp [EntryCall.ofRequest]
  refine ⟨coherent.sound, coherent.readable, ?_, ?_, ?_⟩
  · intro j id e will
    exact absurd rfl ((waits will).1 id e)
  · intro j id e has
    exact absurd rfl ((waits has).2 id e)
  · intro id item there
    obtain ⟨e, read, row⟩ := coherent.caches id item there
    exact ⟨e, read, .inl row⟩

end Kept

/-- When all calls have ended and none broke down, what is cached under an id is its row, or a row
that a call had loaded or stored before another call stored and cached a newer one, and cached after
that. -/
theorem cached_or_overtaken (s : EntryService) {ttl : Option Nat}
    (stores : s.store = EntryService.storeOf s.env ttl)
    (clock : ∀ now, (s.env.timeOfDay now).HasPlainYear) (w : World Memory)
    (coherent : s.Coherent w) (requests : List EntryRequest) (events : List EntryEvent)
    (v : EntrySchedule) (ran : (start w requests).replay? s events = some v)
    (finished : ∀ c ∈ v.calls, c.isEnded)
    (returned : v.world.cache.breakdowns = w.cache.breakdowns) (id : EntryId) (item : Stored)
    (cached : v.world.cache.items.get? (s.key id).text = some item) :
    ∃ e, s.store.read item.data = some e ∧
      (v.world.database.findEntry id = .ok (some e) ∨ Outdated v.log id e) := by
  have kept : Kept s v := 
    (Kept.start coherent requests).replay stores clock ran returned
  obtain ⟨e, read, row | ⟨j, e', hasRow, -⟩ | outdated⟩ := kept.cached id item cached
  · refine ⟨e, read, .inl ?_⟩
    rw [EntryService.findEntry_of_sound kept.sound, row]
    rfl
  · exact absurd (finished _ (List.mem_of_getElem? hasRow)) (by simp [EntryCall.isEnded])
  · exact ⟨e, read, .inr outdated⟩

theorem lookup_cache (lasts : s.store.ttl = none) (i : Nat) (id : EntryId) (e : Entry) (now : Nat) :
    (v.cache s i id e).world.cache.lookup now (s.key id).text =
      some (s.store.write v.world.link.now e) := by
  have put : (v.cache s i id e).world.cache = v.world.cache.put v.world.link.now (s.key id).text
      (s.store.write v.world.link.now e) s.store.ttl := rfl
  rw [put, lasts, Memory.lookup_put rfl, if_pos rfl]
  rfl

/-- A service without a remote interface. Its clock stands still, and what it caches lasts. -/
def still : EntryService where
  client := {
    baseUrl := "https://host"
    policy := .ofConfig {}
    mode := .failFast
    timeouts := {}
    permits := 1 }
  env := {
    transport := .unreachable
    timeOfDay := fun _ => .epoch }
  store := EntryService.storeOf { transport := .unreachable, timeOfDay := fun _ => .epoch } none
  scope := "league"

/-- An entry of this name as the remote interface sends it. -/
def named (name : String) : EntryPayload where
  id := 7
  name := name
  firstName := ""
  lastName := ""
  region := none
  startedGameweek := none
  overallPoints := none
  overallRank := none
  bank := none
  teamValue := none
  gameweek := none

/-- Of two syncs of an entry the older one is slow to cache what it stored. -/
theorem cached_or_overtaken_older_sync :
    let link : Link := .start {} 0
    let w : World Memory := { link, cache := {} }
    let red : Entry := (named "Reds").toEntry none .epoch
    let blue : Entry := (named "Blues").toEntry none .epoch
    let events : List EntryEvent :=
      [.answer 0 (.ok (named "Reds")) link, .answer 1 (.ok (named "Blues")) link, .turn 0, .turn 1,
        .turn 1]
    still.Coherent w ∧ ∃ v,
      (start w [.sync 7 none, .sync 7 none]).replay? still (events ++ [.turn 0]) = some v ∧
      (∀ c ∈ v.calls, c.isEnded) ∧ v.world.cache.breakdowns = w.cache.breakdowns ∧
      v.world.cache.lookup v.world.link.now (still.key 7).text = some (still.store.write 0 red) ∧
      v.world.database.findEntry 7 = .ok (some blue) ∧ Outdated v.log 7 red := by
  intro link w red blue events
  have coherent : still.Coherent w :=
    EntryService.coherent_of_empty (fun _ => rfl) Tables.readable_empty rfl
  have facts : ((start w [.sync 7 none, .sync 7 none]).replay? still events).map (fun u =>
      (u.calls, u.world.link.now, u.world.database.findEntry 7, u.world.cache.breakdowns)) =
        some ([.caching 7 red, .ended (.ok (some blue))], 0, .ok (some blue), 0) := by
    decide +kernel
  obtain ⟨u, ran, same⟩ := Option.map_eq_some_iff.1 facts
  simp only [Prod.mk.injEq] at same
  obtain ⟨calls, now, row, broken⟩ := same
  have last : u.replay? still [.turn 0] = some (u.cache still 0 7 red) :=
    replay?_turn (c := .caching 7 red) (by rw [calls]; rfl) rfl []
  have replayed := replay?_append ran last
  have finished : ∀ c ∈ (u.cache still 0 7 red).calls, c.isEnded := by
    simp [cache, note, put, calls, EntryCall.isEnded]
  have live : (u.cache still 0 7 red).world.cache.lookup (u.cache still 0 7 red).world.link.now
      (still.key 7).text = some (still.store.write 0 red) := by
    rw [lookup_cache rfl, now]
  obtain ⟨item, there, data⟩ := Memory.get?_of_lookup live
  obtain ⟨e, read, stands⟩ :=
    cached_or_overtaken still rfl (fun _ => Timestamp.hasPlainYear_epoch) w coherent _ _ _ replayed
      finished broken 7 item there
  rw [data, EntryService.read_write rfl red 0] at read
  cases read
  refine ⟨coherent, _, replayed, finished, broken, live, row, stands.resolve_left fun isRow => ?_⟩
  have equal : blue = red := Option.some.inj (Except.ok.inj (row.symm.trans isRow))
  exact absurd equal (by decide)

/-- A sync stores and caches the new name while a reader still has the row with the old one, which
it then caches. All calls have ended, and what is cached is not the row. -/
theorem late_reader_caches_old_row :
    let old : Entry := (named "Reds").toEntry none .epoch
    let new : Entry := (named "Blues").toEntry none .epoch
    let link : Link := .start {} 0
    let w : World Memory := {
      link
      database := { tables := Tables.upsertEntry {} old }
      cache := {} }
    let events : List EntryEvent :=
      [.turn 0, .turn 0, .answer 1 (.ok (named "Blues")) link, .turn 1, .turn 1]
    old ≠ new ∧ still.Coherent w ∧ ∃ v text,
      (start w [.find 7, .sync 7 none]).replay? still (events ++ [.turn 0]) = some v ∧
      (∀ c ∈ v.calls, c.isEnded) ∧
      v.world.cache.lookup v.world.link.now (still.key 7).text = some text ∧
      still.store.read text = some old ∧ v.world.database.findEntry 7 = .ok (some new) := by
  intro old new link w events
  have coherent : still.Coherent w := EntryService.coherent_of_empty (fun _ => rfl)
    (Tables.readable_empty.upsertEntry Timestamp.hasPlainYear_epoch) rfl
  have facts : ((start w [.find 7, .sync 7 none]).replay? still events).map (fun u =>
      (u.calls, u.world.database.findEntry 7)) =
        some ([.caching 7 old, .ended (.ok (some new))], .ok (some new)) := by
    decide +kernel
  obtain ⟨u, ran, same⟩ := Option.map_eq_some_iff.1 facts
  obtain ⟨calls, row⟩ := Prod.mk.inj same
  have last : u.replay? still [.turn 0] = some (u.cache still 0 7 old) :=
    replay?_turn (c := .caching 7 old) (by rw [calls]; rfl) rfl []
  refine ⟨by decide, coherent, u.cache still 0 7 old, still.store.write u.world.link.now old,
    replay?_append ran last, ?_, lookup_cache rfl 0 7 old _, EntryService.read_write rfl old _, row⟩
  simp [cache, note, put, calls, EntryCall.isEnded]

end EntrySchedule
end LeagueSync
