import LeagueSync.World

/-!
# LeagueSync.Entry.Service

Bringing entries up to date and looking them up. An entry is fetched, checked, stored and then
cached, in this order, so a failure on the way leaves what comes later as it was. Look-ups go
through the cache to the durable store.

* `EntryService.mem_of_mem_idsOf`: only ids that were asked for are loaded.
-/

namespace LeagueSync

structure EntryService where
  client : Client
  env : Surroundings
  store : Store Entry
  scope : String

namespace EntryService

variable {σ : Type} [Backend σ]

def storeOf (env : Surroundings) (ttl : Option Nat) : Store Entry where
  space := "entry"
  ttl := ttl
  timeOfDay := env.timeOfDay
  encode := Entry.toJson
  decode := Entry.decode

def key (s : EntryService) (id : EntryId) : CacheKey :=
  .ofEntity s.scope "entry" (toString id)

/-- Fetches an entry, and checks that it is the one that was asked for. -/
def fetch (s : EntryService) (id : EntryId) (link : Link) : Except SyncError EntryPayload × Link :=
  match s.client.fetch s.env EntryPayload.decode { path := s!"/entry/{id}/" } link with
  | (.error (.client 404), link) => (.error (.notFound id), link)
  | (.error e, link) => (.error (.http e), link)
  | (.ok payload, link) =>
    if payload.id = id then (.ok payload, link)
    else
      (.error (.invalid s!"requested entry {id} but upstream returned {payload.id}"), link)

def sync (s : EntryService) (id : EntryId) (gameweek : Option GameweekId) (w : World σ) :
    Except SyncError Entry × World σ :=
  match s.fetch id w.link with
  | (.error e, link) => (.error e, { w with link })
  | (.ok payload, link) =>
    match w.database.upsertEntry (payload.toEntry gameweek (s.env.timeOfDay link.now)) with
    | (.error e, database) => (.error (.database e), { w with link, database })
    | (.ok entry, database) =>
      let w := { w with link, database }
      (.ok entry, w.putEntryShelf (s.store.writeThrough (s.key id) entry w.entryShelf))

def load (d : Database) (id : EntryId) : Except SyncError Entry :=
  match d.findEntry id with
  | .ok (some entry) => .ok entry
  | .ok none => .error (.notFound id)
  | .error e => .error (.database e)

def find (s : EntryService) (id : EntryId) (w : World σ) :
    Except SyncError (Option Entry) × World σ :=
  let (result, h, ()) : Except SyncError Entry × Shelf σ × Unit :=
    s.store.getOrLoad (s.key id) (fun () => (load w.database id, ())) w.entryShelf ()
  let w := w.putEntryShelf h
  match result with
  | .ok entry => (.ok (some entry), w)
  | .error (.notFound _) => (.ok none, w)
  | .error e => (.error e, w)

def loadMany (s : EntryService) (d : Database) (ids : List EntryId) :
    Except SyncError (List (CacheKey × Entry)) :=
  match d.findEntries ids with
  | .ok entries => .ok (entries.map fun e => (s.key e.id, e))
  | .error e => .error (.database e)

def idsOf (s : EntryService) (ids : List EntryId) (missing : List CacheKey) : List EntryId :=
  missing.filterMap fun key => ids.find? fun id => s.key id == key

/-- Looks several entries up; those that do not exist are left out. -/
def findMany (s : EntryService) (ids : List EntryId) (w : World σ) :
    Except SyncError (List Entry) × World σ :=
  let keys := ids.map s.key
  let (result, h, ()) := s.store.getAllOrLoad keys
    (fun missing () => (s.loadMany w.database (s.idsOf ids missing), ())) w.entryShelf ()
  (result.map fun found => keys.filterMap found.get?, w.putEntryShelf h)

def allIds (d : Database) : Except SyncError (List EntryId) :=
  match d.listIds with
  | .ok ids => .ok ids
  | .error e => .error (.database e)

/-- Caches all known entries, and says how many there are. -/
def warmUp (s : EntryService) (w : World σ) : Except SyncError Nat × World σ :=
  let (result, h, ()) := s.store.warmUp
    (fun () => ((allIds w.database).bind (s.loadMany w.database), ())) w.entryShelf ()
  (result, w.putEntryShelf h)

theorem mem_of_mem_idsOf (s : EntryService) (ids : List EntryId) (missing : List CacheKey)
    (id : EntryId) (h : id ∈ s.idsOf ids missing) : id ∈ ids := by
  simp only [idsOf, List.mem_filterMap] at h
  obtain ⟨key, _, hk⟩ := h
  exact List.mem_of_find?_eq_some hk

end EntryService
end LeagueSync
