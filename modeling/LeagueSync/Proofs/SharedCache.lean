import LeagueSync.Program.App
import LeagueSync.Proofs.EntryCoherence
import LeagueSync.Proofs.GameweekSources
import LeagueSync.Proofs.ReadThrough

/-!
# LeagueSync.Proofs.SharedCache

Entries and gameweeks in one cache. Their keys are texts with colons between the parts, and neither
the prefix nor the season is free of colons; still, no two keys are the same. So a call on entries
or gameweeks changes the cache only under the keys of what it was asked for, whoever else uses the
cache meanwhile.

* `App.keyOf_injective`: each entry and each season has a key of its own.
* `World.Touches`: calls of the cache that change values under certain keys only lead from one world
  to another. `App.touches_perform`: each call of a service is of this kind.
* `Shared`: a cache which others use between the calls of the one that is looked at.
* `App.perform_spares`: what is read of anything else stays the same, at any moment.
-/

namespace LeagueSync

/-! ## Keys -/

theorem CacheKey.ofPartition_injective (scope : String) :
    Function.Injective fun partition => (CacheKey.ofPartition scope partition).text := by
  intro a b same
  have texts : (scope ++ "::").toList ++ a.toList = (scope ++ "::").toList ++ b.toList := by
    simpa only [CacheKey.ofPartition, ← String.toList_append] using congrArg String.toList same
  exact String.ext (List.append_cancel_left texts)

/-- The keys of entries and those of gameweeks differ right after the prefix and a colon. -/
theorem CacheKey.entry_ne_gameweek (scope id season : String) :
    (CacheKey.ofEntity scope "entry" id).text ≠
      (CacheKey.ofPartition (scope ++ ":event:current") season).text := by
  intro same
  have texts := congrArg String.toList same
  simp only [CacheKey.ofEntity, CacheKey.ofPartition, String.toList_append, List.append_assoc]
    at texts
  have rest := List.append_cancel_left texts
  simp at rest

/-- What is cached under a key of its own. -/
inductive CachedItem where
  | entry (id : EntryId)
  | gameweek (season : String)
  deriving DecidableEq

namespace App

variable {env : Surroundings} {c : Config} {a : App}

def keyOf (a : App) : CachedItem → CacheKey
  | .entry id => a.entries.key id
  | .gameweek season => a.gameweeks.key season

theorem scope_ofConfig (built : ofConfig env c = .ok a) :
    a.entries.scope = c.cache.keyPrefix ∧ a.gameweeks.scope = c.cache.keyPrefix := by
  rw [ofConfig] at built
  cases configured : Client.ofConfig c.api c.http with
  | error e =>
    rw [configured] at built
    cases built
  | ok client =>
    rw [configured] at built
    cases built
    exact ⟨rfl, rfl⟩

/-- Each entry and each season has a key of its own, whatever the prefix. -/
theorem keyOf_injective (built : ofConfig env c = .ok a) :
    Function.Injective fun item => (a.keyOf item).text := by
  obtain ⟨entries, gameweeks⟩ := scope_ofConfig built
  have differ (id : EntryId) (season : String) :
      (a.entries.key id).text ≠ (a.gameweeks.key season).text := by
    rw [EntryService.key, GameweekLookup.key, entries, gameweeks]
    exact CacheKey.entry_ne_gameweek _ _ _
  intro x y same
  cases x with
  | entry id =>
    cases y with
    | entry id' => exact congrArg CachedItem.entry (a.entries.key_injective same)
    | gameweek season => exact absurd same (differ id season)
  | gameweek season =>
    cases y with
    | entry id => exact absurd same.symm (differ id season)
    | gameweek season' =>
      exact congrArg CachedItem.gameweek (CacheKey.ofPartition_injective _ same)

end App

/-! ## What calls of the services touch -/

/-- Calls of the cache that change values under these keys only lead from one world to the other,
and the clock does not go back. -/
structure World.Touches {σ : Type} [Backend σ] (keys : String → Prop) (w w' : World σ) : Prop where
  now : w.link.now ≤ w'.link.now
  calls : ∃ calls : List (Nat × CacheCall),
    (∀ c ∈ calls, c.1 ≤ w'.link.now ∧ c.2.Within keys) ∧
      w'.cache = calls.foldl (fun b c => c.2.after c.1 b) w.cache

namespace World.Touches

variable {σ : Type} [Backend σ] {keys : String → Prop} {w w' w'' : World σ}

theorem of_cache (now : w.link.now ≤ w'.link.now) (cache : w'.cache = w.cache) :
    w.Touches keys w' :=
  ⟨now, [], List.forall_mem_nil _, cache⟩

theorem trans (first : w.Touches keys w') (second : w'.Touches keys w'') :
    w.Touches keys w'' := by
  obtain ⟨now, calls, within, led⟩ := first
  obtain ⟨now', calls', within', led'⟩ := second
  refine ⟨Nat.le_trans now now', calls ++ calls', List.forall_mem_append.2 ⟨?_, within'⟩, ?_⟩
  · exact fun c member => ⟨Nat.le_trans (within c member).1 now', (within c member).2⟩
  · rw [List.foldl_append, ← led, led']

theorem of_led {h h' : Shelf σ} (led : h.LeadsWithin keys h') (now : h.now = w.link.now)
    (backend : h.backend = w.cache) (now' : w'.link.now = w.link.now)
    (backend' : w'.cache = h'.backend) : w.Touches keys w' := by
  obtain ⟨-, calls, within, led⟩ := led
  refine ⟨Nat.le_of_eq now'.symm, calls.map fun c => (w.link.now, c), ?_, ?_⟩
  · intro c member
    obtain ⟨call, listed, rfl⟩ := List.mem_map.1 member
    exact ⟨Nat.le_of_eq now'.symm, within call listed⟩
  · rw [backend', led, List.foldl_map, now, backend]

theorem putEntryShelf {h : Shelf σ} (led : w.entryShelf.LeadsWithin keys h) :
    w.Touches keys (w.putEntryShelf h) :=
  .of_led led rfl rfl rfl rfl

theorem putGameweekShelf {h : Shelf σ} (led : w.gameweekShelf.LeadsWithin keys h) :
    w.Touches keys (w.putGameweekShelf h) :=
  .of_led led rfl rfl rfl rfl

/-- What calls at these times keep that change values under these keys only is kept on the way. -/
theorem invariant (touches : w.Touches keys w') {P : σ → Prop}
    (keeps : ∀ now ≤ w'.link.now, ∀ c : CacheCall, c.Within keys → ∀ b, P b → P (c.after now b))
    (start : P w.cache) : P w'.cache := by
  obtain ⟨-, calls, within, led⟩ := touches
  rw [led]
  exact List.foldlRecOn calls _ start fun b holds c member =>
    keeps c.1 (within c member).1 c.2 (within c member).2 b holds

end World.Touches

namespace EntryService

variable {σ : Type} [Backend σ] {keys : String → Prop} (s : EntryService)

theorem now_le_fetch (id : EntryId) (l : Link) : l.now ≤ (s.fetch id l).2.now := by
  rw [(s.fetch_eq id l).1]
  exact (s.client.request_link s.env _ l).1

theorem touches_sync {id : EntryId} (own : keys (s.key id).text) (gameweek : Option GameweekId)
    (w : World σ) : w.Touches keys (s.sync id gameweek w).2 := by
  have later := s.now_le_fetch id w.link
  rw [sync]
  cases fetched : s.fetch id w.link with
  | mk result link =>
    rw [fetched] at later
    cases result with
    | error e => exact .of_cache later rfl
    | ok p =>
      dsimp only
      cases w.database.upsertEntry (p.toEntry gameweek (s.env.timeOfDay link.now)) with
      | mk written database =>
        have asked : w.Touches keys { w with link, database } := .of_cache later rfl
        cases written with
        | error e => exact asked
        | ok e => exact asked.trans (.putEntryShelf (s.store.leads_set own e none _))

theorem touches_find {id : EntryId} (own : keys (s.key id).text) (w : World σ) :
    w.Touches keys (s.find id w).2 := by
  have led : w.entryShelf.LeadsWithin keys _ :=
    s.store.leads_getOrLoad own (fun () => (load w.database id, ())) w.entryShelf ()
  rw [find]
  dsimp only
  split <;> exact .putEntryShelf led

theorem mem_loadMany {d : Database} (keyed : d.tables.Keyed) {ids : List EntryId}
    {loaded : List (CacheKey × Entry)} (gave : s.loadMany d ids = .ok loaded)
    {kv : CacheKey × Entry} (member : kv ∈ loaded) :
    ∃ id ∈ ids, (d.tables.entries.get? id).isSome ∧ kv.1 = s.key id := by
  rw [loadMany, Database.findEntries, Database.ask] at gave
  cases fails : d.fails .findEntries with
  | some e =>
    simp only [fails] at gave
    cases gave
  | none =>
    cases found : d.tables.findEntries ids with
    | error fault =>
      simp only [fails, found, stored] at gave
      cases gave
    | ok es =>
      simp only [fails, found, stored] at gave
      cases gave
      obtain ⟨e, listed, rfl⟩ := List.mem_map.1 member
      obtain ⟨asked, there⟩ := keyed.of_findEntries found listed
      exact ⟨e.id, asked, there, rfl⟩

theorem touches_findMany {ids : List EntryId} (own : ∀ id ∈ ids, keys (s.key id).text)
    {w : World σ} (keyed : w.database.tables.Keyed) : w.Touches keys (s.findMany ids w).2 := by
  refine .putEntryShelf (s.store.leads_getAllOrLoad (ids.map s.key)
    (fun missing () => (s.loadMany w.database (s.idsOf ids missing), ())) w.entryShelf () ?_)
  intro missing loaded gave kv member
  obtain ⟨id, asked, -, key⟩ := s.mem_loadMany keyed gave member
  rw [key]
  exact own id (s.mem_of_mem_idsOf ids missing id asked)

theorem touches_warmUp {w : World σ} (keyed : w.database.tables.Keyed)
    (own : ∀ id, (w.database.tables.entries.get? id).isSome → keys (s.key id).text) :
    w.Touches keys (s.warmUp w).2 := by
  refine .putEntryShelf (s.store.leads_warmUp
    (fun () => ((allIds w.database).bind (s.loadMany w.database), ())) w.entryShelf () ?_)
  intro loaded gave kv member
  cases listed : allIds w.database with
  | error e =>
    rw [listed] at gave
    cases gave
  | ok ids =>
    rw [listed] at gave
    obtain ⟨id, -, there, key⟩ := s.mem_loadMany keyed gave member
    rw [key]
    exact own id there

end EntryService

namespace GameweekLookup

variable {σ : Type} [Backend σ] {keys : String → Prop} (s : GameweekLookup)

theorem touches_cache {season : String} (own : keys (s.key season).text) (g : Gameweek)
    (w : World σ) : w.Touches keys (s.cache season g w) :=
  .putGameweekShelf (s.store.leads_set own g none w.gameweekShelf)

theorem touches_fetch {season : String} (own : keys (s.key season).text) (w : World σ) :
    w.Touches keys (s.fetch season w).2 := by
  have later := s.now_le_announced w.link
  cases told : s.announced w.link with
  | mk result link =>
    rw [told] at later
    cases result with
    | error e =>
      rw [s.fetch_of_error season w told]
      exact .of_cache later rfl
    | ok p =>
      obtain ⟨stats, ran⟩ := s.fetch_of_ok season w told
      rw [ran]
      cases p.current? with
      | none => exact .of_cache later rfl
      | some g =>
        have within := CacheCall.within_set own (s.store.write link.now g) s.store.ttl
        exact ⟨later, [(link.now, _)], List.forall_mem_singleton.2 ⟨Nat.le_refl _, within⟩, rfl⟩

theorem touches_drop {season : String} (own : keys (s.key season).text) (w : World σ) :
    w.Touches keys (s.drop season w) :=
  .putGameweekShelf (w.gameweekShelf.leads_invalidate own)

theorem touches_current {w : World σ} (own : keys (s.key (s.season w.link.now)).text) :
    w.Touches keys (s.current w).2 := by
  have looked : w.gameweekShelf.LeadsWithin keys _ :=
    s.store.leads_get (s.key (s.season w.link.now)) w.gameweekShelf
  rw [current]
  dsimp only
  cases got : s.store.get (s.key (s.season w.link.now)) w.gameweekShelf with
  | mk found h =>
    rw [got] at looked
    have touched : w.Touches keys (w.putGameweekShelf h) := .putGameweekShelf looked
    cases found with
    | some g => exact touched
    | none =>
      dsimp only
      split
      · exact touched.trans (s.touches_cache own ..)
      · exact touched.trans (s.touches_fetch own _)

theorem touches_refresh {w : World σ} (own : keys (s.key (s.season w.link.now)).text) :
    w.Touches keys (s.refresh w).2 :=
  (s.touches_drop own w).trans (s.touches_fetch own _)

end GameweekLookup

/-- A call of one of the two services. The season of a look-up may be pinned. -/
inductive ServiceCall where
  | sync (id : EntryId) (gameweek : Option GameweekId)
  | find (id : EntryId)
  | findMany (ids : List EntryId)
  | warmUp
  | current (pinned : Option String)
  | refresh (pinned : Option String)
  | invalidate (pinned : Option String)

namespace App

variable {σ : Type} (a : App)

/-- The look-up of gameweeks in this season, or in that of the day. -/
def lookupIn (pinned : Option String) : GameweekLookup :=
  { a.gameweeks with pinned }

def perform [Backend σ] (w : World σ) : ServiceCall → World σ
  | .sync id gameweek => (a.entries.sync id gameweek w).2
  | .find id => (a.entries.find id w).2
  | .findMany ids => (a.entries.findMany ids w).2
  | .warmUp => (a.entries.warmUp w).2
  | .current pinned => ((a.lookupIn pinned).current w).2
  | .refresh pinned => ((a.lookupIn pinned).refresh w).2
  | .invalidate pinned => (a.lookupIn pinned).invalidate w

/-- What a call has to do with: the entries that it is asked for, all stored ones when everything is
to be cached, or the season that it looks in. -/
def Concerns (w : World σ) : ServiceCall → CachedItem → Prop
  | .sync id _, .entry id' => id' = id
  | .find id, .entry id' => id' = id
  | .findMany ids, .entry id' => id' ∈ ids
  | .warmUp, .entry id' => (w.database.tables.entries.get? id').isSome
  | .current pinned, .gameweek season => season = (a.lookupIn pinned).season w.link.now
  | .refresh pinned, .gameweek season => season = (a.lookupIn pinned).season w.link.now
  | .invalidate pinned, .gameweek season => season = (a.lookupIn pinned).season w.link.now
  | _, _ => False

/-- A call changes values only under the keys of what it has to do with. -/
theorem touches_perform [Backend σ] {w : World σ} (keyed : w.database.tables.Keyed)
    (call : ServiceCall) :
    w.Touches (fun key => ∃ item, a.Concerns w call item ∧ (a.keyOf item).text = key)
      (a.perform w call) := by
  cases call with
  | sync id gameweek => exact a.entries.touches_sync ⟨.entry id, rfl, rfl⟩ gameweek w
  | find id => exact a.entries.touches_find ⟨.entry id, rfl, rfl⟩ w
  | findMany ids =>
    exact a.entries.touches_findMany (fun id asked => ⟨.entry id, asked, rfl⟩) keyed
  | warmUp => exact a.entries.touches_warmUp keyed fun id there => ⟨.entry id, there, rfl⟩
  | current pinned => exact (a.lookupIn pinned).touches_current ⟨.gameweek _, rfl, rfl⟩
  | refresh pinned => exact (a.lookupIn pinned).touches_refresh ⟨.gameweek _, rfl, rfl⟩
  | invalidate pinned => exact (a.lookupIn pinned).touches_drop ⟨.gameweek _, rfl, rfl⟩ w

end App

/-! ## A cache that others use -/

/-- What happens to a shared cache at a time: a call of others, or a turn of the one that is looked
at. -/
structure CacheTurn where
  now : Nat
  others : Option CacheCall

/-- A cache which others use as well, with what will happen to it until the moment of interest. The
one that is looked at waits for its turns; a call for which no turn is left comes after that
moment. -/
structure Shared (σ : Type) where
  backend : σ
  turns : List CacheTurn

namespace Shared

variable {σ : Type} [Backend σ]

/-- Waits for the next turn, while others use the cache. -/
def await (b : σ) : List CacheTurn → Option Nat × Shared σ
  | [] => (none, ⟨b, []⟩)
  | ⟨now, none⟩ :: turns => (some now, ⟨b, turns⟩)
  | ⟨now, some c⟩ :: turns => await (c.after now b) turns

/-- Does something at the next turn, if there is one. -/
def atTurn {α : Type} (b : Shared σ) (f : Nat → σ → Except CacheError α × σ) :
    Except CacheError α × Shared σ :=
  match await b.backend b.turns with
  | (some now, b) =>
    let (result, backend) := f now b.backend
    (result, { b with backend })
  | (none, b) => (.error (.backend "no turn is left"), b)

instance : Backend (Shared σ) where
  get _ key b := b.atTurn fun now => Backend.get now key
  set _ key data ttl b := b.atTurn fun now => Backend.set now key data ttl
  setMany _ values ttl b := b.atTurn fun now => Backend.setMany now values ttl
  delete key b := b.atTurn fun _ => Backend.delete key

/-- The cache at the moment of interest, when no more turns are used. -/
def settled (b : Shared σ) : σ :=
  b.turns.foldl (fun b turn => turn.others.elim b (·.after turn.now b)) b.backend

/-- What a call makes of a shared cache: it is made at the next turn, or not yet. -/
theorem after_eq (now : Nat) (b : Shared σ) (c : CacheCall) :
    c.after now b = match await b.backend b.turns with
      | (some time, b) => { b with backend := c.after time b.backend }
      | (none, b) => b := by
  cases c <;>
  · simp only [CacheCall.after, Backend.get, Backend.set, Backend.setMany, Backend.delete, atTurn]
    split <;> rfl

theorem turns_await (b : σ) (turns : List CacheTurn) :
    ∀ turn ∈ (await b turns).2.turns, turn ∈ turns := by
  induction turns generalizing b with
  | nil => exact fun _ member => member
  | cons turn turns ih =>
    obtain ⟨now, others⟩ := turn
    cases others with
    | none => exact fun _ member => .tail _ member
    | some c => exact fun turn member => .tail _ (ih (c.after now b) turn member)

theorem turns_after (now : Nat) (b : Shared σ) (c : CacheCall) :
    ∀ turn ∈ (c.after now b).turns, turn ∈ b.turns := by
  have rest := turns_await b.backend b.turns
  rw [after_eq]
  split <;> next waited => rwa [waited] at rest

end Shared

namespace Memory

variable {now later : Nat} (le : now ≤ later)
include le

/-- What is under a key after a call is what the call made of what was there. -/
theorem live?_after_congr {m m' : Memory} (clock : m.horizon = m'.horizon) {k : String}
    (same : m.live? later k = m'.live? later k) (c : CacheCall) :
    (c.after now m).live? later k = (c.after now m').live? later k := by
  cases c with
  | get key => exact (m.live?_get key k le).trans (same.trans (m'.live?_get key k le).symm)
  | set key data ttl =>
    refine (m.live?_put now later key k data ttl).trans ?_
    rw [same, reaches_congr clock]
    exact (m'.live?_put now later key k data ttl).symm
  | setMany values ttl =>
    refine (m.live?_putMany now later values ttl k).trans ?_
    rw [same, reaches_congr clock]
    exact (m'.live?_putMany now later values ttl k).symm
  | delete key =>
    refine (m.live?_delete later key k).trans ?_
    rw [same]
    exact (m'.live?_delete later key k).symm

end Memory

namespace Shared

variable {later : Nat} {k : String}

theorem live?_settled_congr {turns : List CacheTurn} (inTime : ∀ turn ∈ turns, turn.now ≤ later)
    {m m' : Memory} (clock : m.horizon = m'.horizon) (same : m.live? later k = m'.live? later k) :
    (settled ⟨m, turns⟩).live? later k = (settled ⟨m', turns⟩).live? later k := by
  induction turns generalizing m m' with
  | nil => exact same
  | cons turn turns ih =>
    have rest : ∀ turn ∈ turns, turn.now ≤ later := fun turn member => inTime turn (.tail _ member)
    obtain ⟨now, others⟩ := turn
    cases others with
    | none => exact ih rest clock same
    | some c =>
      have clock' : (c.after now m).horizon = (c.after now m').horizon := by
        rw [Memory.horizon_after, Memory.horizon_after, clock]
      exact ih rest clock' (Memory.live?_after_congr (inTime _ List.mem_cons_self) clock same c)

/-- A call that changes nothing under a key makes no difference to what is there at the moment of
interest, whatever others do before it and after it. -/
theorem live?_settled_after {c : CacheCall} (other : ¬ c.Changes k) {b : Shared Memory}
    (inTime : ∀ turn ∈ b.turns, turn.now ≤ later) (now : Nat) :
    (c.after now b).settled.live? later k = b.settled.live? later k := by
  obtain ⟨m, turns⟩ := b
  rw [after_eq]
  induction turns generalizing m with
  | nil => rfl
  | cons turn turns ih =>
    have rest : ∀ turn ∈ turns, turn.now ≤ later := fun turn member => inTime turn (.tail _ member)
    obtain ⟨time, others⟩ := turn
    cases others with
    | none =>
      exact live?_settled_congr rest (Memory.horizon_after time c m)
        (Memory.keeping.live?_after (inTime _ List.mem_cons_self) other m)
    | some c' => exact ih (c'.after time m) rest

end Shared

namespace App

variable {env : Surroundings} {c : Config} {a : App}

/-- Each entry and each season has a key of its own, whatever the prefix. A call of a service makes
no difference to what is read of anything that it has nothing to do with, at its end and at any
moment after it. If others use the cache between its calls, it makes no difference at any moment,
not even while it is under way: what is read is what would be read if it did nothing. -/
theorem perform_spares (built : ofConfig env c = .ok a) :
    (Function.Injective fun item => (a.keyOf item).text) ∧
    (∀ (w : World Memory) (call : ServiceCall) (item : CachedItem),
      w.database.tables.Keyed → ¬ a.Concerns w call item →
      ∀ later, (a.perform w call).link.now ≤ later →
        (a.perform w call).cache.lookup later (a.keyOf item).text =
          w.cache.lookup later (a.keyOf item).text) ∧
    ∀ (w : World (Shared Memory)) (call : ServiceCall) (item : CachedItem),
      w.database.tables.Keyed → ¬ a.Concerns w call item →
      ∀ later, (∀ turn ∈ w.cache.turns, turn.now ≤ later) →
        (a.perform w call).cache.settled.lookup later (a.keyOf item).text =
          w.cache.settled.lookup later (a.keyOf item).text := by
  have injective := keyOf_injective built
  have spared {σ : Type} {w : World σ} {call : ServiceCall} {item : CachedItem}
      (other : ¬ a.Concerns w call item) {cacheCall : CacheCall}
      (within : cacheCall.Within fun key =>
        ∃ item, a.Concerns w call item ∧ (a.keyOf item).text = key) :
      ¬ cacheCall.Changes (a.keyOf item).text := by
    intro changes
    obtain ⟨item', concerned, same⟩ := within _ changes
    exact other (injective same ▸ concerned)
  refine ⟨injective, ?_, ?_⟩
  · intro w call item keyed other later inTime
    rw [Memory.lookup_eq_live?, Memory.lookup_eq_live?]
    refine congrArg (Option.map Stored.data) ((a.touches_perform keyed call).invariant
      (P := fun m => m.live? later (a.keyOf item).text = w.cache.live? later _) ?_ rfl)
    intro now le cacheCall within m same
    exact (Memory.keeping.live?_after (Nat.le_trans le inTime) (spared other within) m).trans same
  · intro w call item keyed other later inTime
    rw [Memory.lookup_eq_live?, Memory.lookup_eq_live?]
    refine congrArg (Option.map Stored.data) ((a.touches_perform keyed call).invariant
      (P := fun b => (∀ turn ∈ b.turns, turn.now ≤ later) ∧
        b.settled.live? later (a.keyOf item).text = w.cache.settled.live? later _) ?_
      ⟨inTime, rfl⟩).2
    rintro now - cacheCall within b ⟨before, same⟩
    refine ⟨fun turn member => before turn (Shared.turns_after now b cacheCall turn member), ?_⟩
    exact (Shared.live?_settled_after (spared other within) before now).trans same

/-- The prefix and the season are made of the parts of other keys. Refreshing the season, which
fails because no server can be reached, leaves the cached entry 7. Looking entry 8 up caches it at
the last turn, after others have cached something else under the key of entry 7. -/
theorem perform_spares_colons :
    let env : Surroundings := { transport := .unreachable, timeOfDay := fun _ => .epoch }
    let c : Config := { cache := { keyPrefix := "a:entry:7" } }
    let client : Client := {
      baseUrl := dropEndSlashes c.api.baseUrl
      policy := .ofConfig c.http.retry
      mode := c.http.rateLimit.mode
      timeouts := c.http.timeouts
      permits := max 1 c.http.maxConcurrent.toNat }
    let a : App := {
      config := c
      env
      entries := ⟨client, env, EntryService.storeOf env (some (c.cache.ttlSecs.toNat * 1000)),
        c.cache.keyPrefix⟩
      gameweeks := {
        client, env
        store := GameweekLookup.storeOf env (some (c.cache.eventTtlSecs.toNat * 1000))
        scope := c.cache.keyPrefix } }
    let seven := (a.keyOf (.entry 7)).text
    let eight := (a.keyOf (.entry 8)).text
    let row : Entry := {
      id := 8, name := "Reds", playerName := "", region := none, startedGameweek := none
      overallPoints := none, overallRank := none, bank := none, teamValue := none
      gameweek := none, updatedAt := .epoch }
    let database : Database := { tables := Tables.upsertEntry {} row }
    let alone : World Memory := {
      link := .start {} 0, database, cache := ({} : Memory).put 0 seven "ours" none }
    let shared : World (Shared Memory) := {
      link := .start {} 0, database
      cache := ⟨{}, [
        ⟨1, none⟩, ⟨2, some (.set seven "others" none)⟩, ⟨3, none⟩, ⟨4, some (.get eight)⟩]⟩ }
    let refreshed := a.perform alone (.refresh (some "entry:7"))
    let found := a.perform shared (.findMany [8])
    ofConfig env c = .ok a ∧ database.tables.Keyed ∧
      ¬ a.Concerns alone (.refresh (some "entry:7")) (.entry 7) ∧
      refreshed.cache.lookup 1000000 seven = some "ours" ∧
      ¬ a.Concerns shared (.findMany [8]) (.entry 7) ∧
      found.cache.settled.lookup 5 seven = some "others" ∧
      (found.cache.settled.lookup 5 eight).isSome := by
  intro env c client a seven eight row database alone shared refreshed found
  have agent : isHeaderValue c.api.userAgent = true := by decide +kernel
  have built : ofConfig env c = .ok a := by
    rw [ofConfig, Client.ofConfig, if_pos agent]
    rfl
  have keyed : database.tables.Keyed := Tables.keyed_empty.upsertEntry row
  have other : ¬ a.Concerns shared (.findMany [8]) (.entry 7) := by
    intro concerned
    cases List.mem_singleton.1 concerned
  obtain ⟨-, once, meanwhile⟩ := perform_spares built
  have ended : refreshed.link.now ≤ 1000000 := by decide +kernel
  have inTime : ∀ turn ∈ shared.cache.turns, turn.now ≤ 5 := by decide
  refine ⟨built, keyed, id, ?_, other, ?_, by decide +kernel⟩
  · exact once alone _ (.entry 7) keyed id 1000000 ended
  · exact (meanwhile shared _ (.entry 7) keyed other 5 inTime).trans (by decide +kernel)

end App

end LeagueSync
