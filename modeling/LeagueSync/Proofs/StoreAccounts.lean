import LeagueSync.Proofs.ReadThrough

/-!
# LeagueSync.Proofs.StoreAccounts

What a store counts. `Heard` is any backend with what was asked of it and what came back, in order;
a store does on it what it does on the backend inside. `Watched` counts the calls of loaders beside
it. The account of a store agrees with what was heard, whatever the backend answers and whatever the
loaders give.

* `Store.watchAll_forget`: watching changes nothing.
* `Store.Balanced`: the invariant; `Store.Balanced.watch`: every operation keeps it.
* `Store.accounts_for_every_access`: the counters after any run of operations.
-/

namespace LeagueSync

variable {σ : Type} [Backend σ]

/-! ## Hearing a backend -/

/-- A call of a backend and what came back. -/
inductive CacheEvent where
  | looked (key : String) (answer : Except CacheError (Option String))
  | changed (c : CacheCall) (result : Except CacheError Unit)

namespace CacheEvent

/-- The key that was looked up, if one was. -/
def key? : CacheEvent → Option String
  | looked key _ => some key
  | changed .. => none

def failed : CacheEvent → Bool
  | looked _ answer => !answer.isOk
  | changed _ result => !result.isOk

end CacheEvent

/-- A backend and what was heard of it. -/
structure Heard (σ : Type) where
  backend : σ
  events : List CacheEvent := []

namespace Heard

instance : Backend (Heard σ) where
  get now key b :=
    let (answer, backend) := Backend.get now key b.backend
    (answer, ⟨backend, b.events ++ [.looked key answer]⟩)
  set now key data ttl b :=
    let (result, backend) := Backend.set now key data ttl b.backend
    (result, ⟨backend, b.events ++ [.changed (.set key data ttl) result]⟩)
  setMany now values ttl b :=
    let (result, backend) := Backend.setMany now values ttl b.backend
    (result, ⟨backend, b.events ++ [.changed (.setMany values ttl) result]⟩)
  delete key b :=
    let (result, backend) := Backend.delete key b.backend
    (result, ⟨backend, b.events ++ [.changed (.delete key) result]⟩)

theorem forgets : Forgets (Heard.backend : Heard σ → σ) :=
  ⟨fun _ _ _ => rfl, fun _ _ _ _ _ => rfl, fun _ _ _ _ => rfl, fun _ _ => rfl⟩

end Heard

/-! ## Watching a store -/

/-- A shelf of which everything is heard, and how many times loaders were called. -/
structure Watched (σ : Type) where
  shelf : Shelf (Heard σ)
  loads : Nat := 0

namespace Watched

/-- A shelf of which nothing was heard yet. -/
def ofShelf (h : Shelf σ) : Watched σ :=
  ⟨⟨h.now, ⟨h.backend, []⟩, h.stats, h.metrics⟩, 0⟩

def forget (w : Watched σ) : Shelf σ :=
  w.shelf.seen Heard.backend

end Watched

/-- The keys that an operation looks up, each of several keys once. -/
def StoreStep.lookups {ε V : Type} : StoreStep ε V → List String
  | .get key => [key.text]
  | .getOrLoad key _ => [key.text]
  | .getAllOrLoad keys _ => keys.eraseDups.map (·.text)
  | .set .. | .writeThrough .. | .cacheMany _ | .warmUp _ | .invalidate _ | .wait _ | .other _ => []

namespace Store

variable {V ε : Type} (s : Store V)

/-- Whether an event is a look-up in whose answer the store finds a value. -/
def finds : CacheEvent → Bool
  | .looked _ answer => (s.found answer).isSome
  | .changed .. => false

/-- An operation with loaders that are counted. What others call the backend for is not heard. -/
def watch (w : Watched σ) : StoreStep ε V → Watched σ
  | .get key => { w with shelf := (s.get key w.shelf).2 }
  | .set key v ttl => { w with shelf := (s.set key v ttl w.shelf).2 }
  | .writeThrough key v => { w with shelf := s.writeThrough key v w.shelf }
  | .getOrLoad key loaded =>
    let (_, shelf, loads) := s.getOrLoad key (fun n => (loaded, n + 1)) w.shelf w.loads
    ⟨shelf, loads⟩
  | .getAllOrLoad keys load =>
    let (_, shelf, loads) :=
      s.getAllOrLoad keys (fun missing n => (load missing, n + 1)) w.shelf w.loads
    ⟨shelf, loads⟩
  | .cacheMany values => { w with shelf := s.cacheMany values w.shelf }
  | .warmUp loaded =>
    let (_, shelf, loads) := s.warmUp (fun n => (loaded, n + 1)) w.shelf w.loads
    ⟨shelf, loads⟩
  | .invalidate key => { w with shelf := (w.shelf.invalidate key).2 }
  | .wait ms => { w with shelf := { w.shelf with now := w.shelf.now + ms } }
  | .other c =>
    { w with
      shelf :=
        { w.shelf with
          backend :=
            { w.shelf.backend with backend := c.after w.shelf.now w.shelf.backend.backend } } }

def watchAll (w : Watched σ) (steps : List (StoreStep ε V)) : Watched σ :=
  steps.foldl s.watch w

theorem watch_forget (w : Watched σ) (c : StoreStep ε V) :
    (s.watch w c).forget = s.step w.forget c := by
  have forgets : Forgets (Heard.backend : Heard σ → σ) := Heard.forgets
  symm
  cases c with
  | get key => exact congrArg Prod.snd (s.get_seen forgets key w.shelf)
  | set key v ttl => exact congrArg Prod.snd (s.set_seen forgets key v ttl w.shelf)
  | writeThrough key v => exact congrArg Prod.snd (s.set_seen forgets key v none w.shelf)
  | getOrLoad key loaded =>
    exact congrArg (·.2.1) (s.getOrLoad_seen forgets (fun _ => ()) key
      (fun n => (loaded, n + 1)) (fun () => (loaded, ())) (fun _ => rfl) w.shelf w.loads)
  | getAllOrLoad keys load =>
    exact congrArg (·.2.1) (s.getAllOrLoad_seen forgets (fun _ => ()) keys
      (fun missing n => (load missing, n + 1)) (fun missing () => (load missing, ()))
      (fun _ _ => rfl) w.shelf w.loads)
  | cacheMany values => exact s.cacheMany_seen forgets values w.shelf
  | warmUp loaded =>
    exact congrArg (·.2.1) (s.warmUp_seen forgets (fun _ => ())
      (fun n => (loaded, n + 1)) (fun () => (loaded, ())) (fun _ => rfl) w.shelf w.loads)
  | invalidate key => exact congrArg Prod.snd (w.shelf.invalidate_seen forgets key)
  | wait ms => rfl
  | other c => rfl

theorem watchAll_forget (w : Watched σ) (steps : List (StoreStep ε V)) :
    (s.watchAll w steps).forget = s.run w.forget steps := by
  induction steps generalizing w with
  | nil => rfl
  | cons c steps ih =>
    show (s.watchAll (s.watch w c) steps).forget = s.run (s.step w.forget c) steps
    rw [ih, watch_forget]

/-! ## The account -/

/-- The account of a store agrees with what was heard: these keys were looked up, and loaders were
called so many times. -/
structure Balanced (h : Shelf (Heard σ)) (loads : Nat) (keys : List String) : Prop where
  asked : h.backend.events.filterMap CacheEvent.key? = keys
  lookups : h.stats.hits + h.stats.misses = keys.length
  hits : h.stats.hits = h.backend.events.countP s.finds
  loaded : h.stats.loads = loads
  errors : h.stats.errors = h.backend.events.countP CacheEvent.failed
  shownHits : h.metrics.cacheHits.total s.space = h.stats.hits
  shownMisses : h.metrics.cacheMisses.total s.space = h.stats.misses

namespace Balanced

variable {s} {h : Shelf (Heard σ)} {loads : Nat} {keys : List String}

omit [Backend σ] in
theorem countLoad (balanced : s.Balanced h loads keys) : s.Balanced h.countLoad (loads + 1) keys :=
  { balanced with loaded := congrArg (· + 1) balanced.loaded }

omit [Backend σ] in
/-- A look-up is a hit or a miss, and perhaps an error besides. -/
theorem looked (balanced : s.Balanced h loads keys) (key : String) (b : σ)
    (answer : Except CacheError (Option String)) :
    s.Balanced {
      now := h.now
      backend := ⟨b, h.backend.events ++ [.looked key answer]⟩
      stats := {
        hits := h.stats.hits + if (s.found answer).isSome then 1 else 0
        misses := h.stats.misses + if (s.found answer).isSome then 0 else 1
        loads := h.stats.loads
        errors := h.stats.errors + if answer.isOk then 0 else 1 }
      metrics := if (s.found answer).isSome then
        h.metrics.addCacheHit s.space else h.metrics.addCacheMiss s.space } loads (keys ++ [key]) where
  asked := by
    rw [List.filterMap_append, balanced.asked]
    rfl
  lookups := by
    rw [List.length_append, ← balanced.lookups]
    cases (s.found answer).isSome with
    | false => rfl
    | true => exact Nat.add_right_comm ..
  hits := by
    rw [List.countP_append, ← balanced.hits, List.countP_singleton]
    rfl
  loaded := balanced.loaded
  errors := by
    rw [List.countP_append, ← balanced.errors]
    cases answer <;> rfl
  shownHits := by
    cases (s.found answer).isSome with
    | false => exact balanced.shownHits
    | true =>
      show (h.metrics.cacheHits.count s.space 1).total s.space = h.stats.hits + 1
      rw [Table.total_count, balanced.shownHits, if_pos rfl]
  shownMisses := by
    cases (s.found answer).isSome with
    | false =>
      show (h.metrics.cacheMisses.count s.space 1).total s.space = h.stats.misses + 1
      rw [Table.total_count, balanced.shownMisses, if_pos rfl]
    | true => exact balanced.shownMisses

omit [Backend σ] in
/-- A write or a removal shows in the account only when it fails. -/
theorem changed (balanced : s.Balanced h loads keys) (c : CacheCall) (b : σ)
    (result : Except CacheError Unit) :
    s.Balanced (Shelf.countFailure
      { h with backend := ⟨b, h.backend.events ++ [.changed c result]⟩ } result) loads keys := by
  have asked : (h.backend.events ++ [CacheEvent.changed c result]).filterMap CacheEvent.key? = keys := by
    rw [List.filterMap_append, balanced.asked]
    exact List.append_nil keys
  have hits : h.stats.hits = (h.backend.events ++ [CacheEvent.changed c result]).countP s.finds := by
    rw [List.countP_append, ← balanced.hits]
    rfl
  have errors : (h.backend.events ++ [CacheEvent.changed c result]).countP CacheEvent.failed =
      h.stats.errors + if result.isOk then 0 else 1 := by
    rw [List.countP_append, ← balanced.errors]
    cases result <;> rfl
  cases result with
  | error e => exact { balanced with asked, hits, errors := errors.symm }
  | ok u => exact { balanced with asked, hits, errors := errors.symm }

theorem get (balanced : s.Balanced h loads keys) (key : CacheKey) :
    s.Balanced (s.get key h).2 loads (keys ++ [key.text]) := by
  rw [get_counted]
  exact balanced.looked ..

theorem set (balanced : s.Balanced h loads keys) (key : CacheKey) (v : V) (ttl : Option Nat) :
    s.Balanced (s.set key v ttl h).2 loads keys :=
  balanced.changed ..

theorem cacheMany (balanced : s.Balanced h loads keys) (values : List (CacheKey × V)) :
    s.Balanced (s.cacheMany values h) loads keys := by
  rw [Store.cacheMany]
  split
  · exact balanced
  · exact balanced.changed ..

theorem invalidate (balanced : s.Balanced h loads keys) (key : CacheKey) :
    s.Balanced (h.invalidate key).2 loads keys :=
  balanced.changed ..

theorem getEach (balanced : s.Balanced h loads keys) (asked : List CacheKey) :
    s.Balanced (s.getEach asked h).2 loads (keys ++ asked.map (·.text)) := by
  induction asked generalizing h keys with
  | nil =>
    rw [List.map_nil, List.append_nil]
    exact balanced
  | cons key asked ih =>
    have rest := ih (balanced.get key)
    rw [List.append_assoc, List.singleton_append, ← List.map_cons] at rest
    rw [Store.getEach]
    cases found : (s.get key h).1 with
    | none => simpa only [found] using rest
    | some v => simpa only [found] using rest

variable {ε : Type}

/-- A loader that is called is counted before it gives or fails. -/
theorem getOrLoad (balanced : s.Balanced h loads keys) (key : CacheKey) (loaded : Except ε V) :
    let (_, h', loads') := s.getOrLoad key (fun n => (loaded, n + 1)) h loads
    s.Balanced h' loads' (keys ++ [key.text]) := by
  have looked := balanced.get key
  rw [Store.getOrLoad]
  generalize s.get key h = reply at looked ⊢
  obtain ⟨found, h'⟩ := reply
  cases found with
  | some v => exact looked
  | none =>
    cases loaded with
    | error e => exact looked.countLoad
    | ok v => exact looked.countLoad.set key v none

theorem getAllOrLoad (balanced : s.Balanced h loads keys) (asked : List CacheKey)
    (load : List CacheKey → Except ε (List (CacheKey × V))) :
    let (_, h', loads') := s.getAllOrLoad asked (fun missing n => (load missing, n + 1)) h loads
    s.Balanced h' loads' (keys ++ asked.eraseDups.map (·.text)) := by
  have looked := balanced.getEach asked.eraseDups
  -- Only if some key was missing is a loader called, and only what it gives is written.
  rw [Store.getAllOrLoad]
  generalize s.getEach asked.eraseDups h = reply at looked ⊢
  obtain ⟨⟨found, missing⟩, h'⟩ := reply
  cases missing with
  | nil => exact looked
  | cons key missing =>
    cases loaded : load (key :: missing) with
    | error e => simpa [loaded] using looked.countLoad
    | ok values => simpa [loaded] using looked.countLoad.cacheMany values

theorem warmUp (balanced : s.Balanced h loads keys) (loaded : Except ε (List (CacheKey × V))) :
    let (_, h', loads') := s.warmUp (fun n => (loaded, n + 1)) h loads
    s.Balanced h' loads' keys := by
  cases loaded with
  | error e => exact balanced.countLoad
  | ok values => exact balanced.countLoad.cacheMany values

omit [Backend σ] in
/-- An operation that looks nothing up. -/
theorem append_nil (balanced : s.Balanced h loads keys) : s.Balanced h loads (keys ++ []) := by
  rw [List.append_nil]
  exact balanced

end Balanced

theorem balanced_watch {w : Watched σ} {keys : List String}
    (balanced : s.Balanced w.shelf w.loads keys) (c : StoreStep ε V) :
    s.Balanced (s.watch w c).shelf (s.watch w c).loads (keys ++ c.lookups) := by
  cases c with
  | get key => exact balanced.get key
  | set key v ttl => exact (balanced.set key v ttl).append_nil
  | writeThrough key v => exact (balanced.set key v none).append_nil
  | getOrLoad key loaded => exact balanced.getOrLoad key loaded
  | getAllOrLoad keys load => exact balanced.getAllOrLoad keys load
  | cacheMany values => exact (balanced.cacheMany values).append_nil
  | warmUp loaded => exact (balanced.warmUp loaded).append_nil
  | invalidate key => exact (balanced.invalidate key).append_nil
  | wait ms => exact Balanced.append_nil { balanced with }
  -- What others call the backend for passes the log by, as it passes the account by.
  | other c => exact Balanced.append_nil { balanced with }

theorem balanced_watchAll {w : Watched σ} {keys : List String}
    (balanced : s.Balanced w.shelf w.loads keys) (steps : List (StoreStep ε V)) :
    s.Balanced (s.watchAll w steps).shelf (s.watchAll w steps).loads
      (keys ++ steps.flatMap StoreStep.lookups) := by
  induction steps generalizing w keys with
  | nil => exact balanced.append_nil
  | cons c steps ih =>
    rw [List.flatMap_cons, ← List.append_assoc]
    exact ih (s.balanced_watch balanced c)

/-- What a new store has counted after any operations, on a backend that does anything at each call:
look-ups as hits and misses, one for each key that an operation looks up, and as hits those that
found a value; as loads the calls of loaders, whatever they gave; and as errors the calls of the
backend that failed. What it reports in its namespace are the same hits and misses. Watching it
changes nothing. -/
theorem accounts_for_every_access (s : Store V) (h : Shelf σ) (new : h.stats = {})
    (noHits : h.metrics.cacheHits.total s.space = 0)
    (noMisses : h.metrics.cacheMisses.total s.space = 0) (steps : List (StoreStep ε V)) :
    let watched := s.watchAll (.ofShelf h) steps
    let events := watched.shelf.backend.events
    let after := s.run h steps
    watched.forget = after ∧
      events.filterMap CacheEvent.key? = steps.flatMap StoreStep.lookups ∧
      after.stats.hits + after.stats.misses = (steps.flatMap StoreStep.lookups).length ∧
      after.stats.hits = events.countP s.finds ∧
      after.stats.loads = watched.loads ∧
      after.stats.errors = events.countP CacheEvent.failed ∧
      after.metrics.cacheHits.total s.space = after.stats.hits ∧
      after.metrics.cacheMisses.total s.space = after.stats.misses := by
  intro watched events after
  have same : watched.forget = after := s.watchAll_forget (.ofShelf h) steps
  have start : s.Balanced (Watched.ofShelf h).shelf (Watched.ofShelf h).loads [] := by
    constructor <;> simp [Watched.ofShelf, new, noHits, noMisses]
  have balanced := s.balanced_watchAll start steps
  rw [List.nil_append] at balanced
  rw [← same]
  exact ⟨rfl, balanced.asked, balanced.lookups, balanced.hits, balanced.loaded, balanced.errors,
    balanced.shownHits, balanced.shownMisses⟩

/-- A cache that takes several values at once but no single one. Of the texts that are looked up,
one was never a record. -/
theorem accounts_for_every_access_half_broken :
    let s : Store String := {
      space := "names"
      ttl := some 1000
      timeOfDay := fun _ => .epoch
      encode := .str
      decode := Json.Tree.string }
    let key (id : String) : CacheKey := .ofEntity "league" "name" id
    let h : Shelf (Flaky Memory) := {
      now := 0
      backend := ⟨{}, fun op => if op = .set then some (.backend "full") else none⟩ }
    let steps : List (StoreStep String String) := [
      .warmUp (.ok [(key "1", "Reds")]),
      .other (.setMany [((key "2").text, "Blues")] none),
      .getOrLoad (key "2") (.ok "Blues"),
      .getOrLoad (key "3") (.error "down"),
      .getAllOrLoad [key "1", key "2", key "1"] fun _ => .error "down",
      .set (key "1") "Greens" none,
      .get (key "1")]
    let watched := s.watchAll (.ofShelf h) steps
    let events := watched.shelf.backend.events
    h.stats = {} ∧ h.metrics.cacheHits.total s.space = 0 ∧
      h.metrics.cacheMisses.total s.space = 0 ∧ watched.forget = s.run h steps ∧
      events.filterMap CacheEvent.key? =
        [(key "2").text, (key "3").text, (key "1").text, (key "2").text, (key "1").text] ∧
      (s.run h steps).stats = ⟨2, 3, 4, 2⟩ ∧ events.countP s.finds = 2 ∧ watched.loads = 4 ∧
      events.countP CacheEvent.failed = 2 ∧
      (s.run h steps).metrics.cacheHits.total "names" = 2 ∧
      (s.run h steps).metrics.cacheMisses.total "names" = 3 := by
  intro s key h steps
  have account := s.accounts_for_every_access h rfl rfl rfl steps
  generalize s.watchAll (.ofShelf h) steps = watched at account ⊢
  obtain ⟨same, keys, -, hits, loads, errors, shownHits, shownMisses⟩ := account
  have asked : steps.flatMap StoreStep.lookups =
      [(key "2").text, (key "3").text, (key "1").text, (key "2").text, (key "1").text] := by
    decide +kernel
  have stats : (s.run h steps).stats = ⟨2, 3, 4, 2⟩ := by decide +kernel
  rw [asked] at keys
  rw [stats] at hits loads errors shownHits shownMisses
  exact ⟨rfl, rfl, rfl, same, keys, stats, hits.symm, loads.symm, errors.symm, shownHits,
    shownMisses⟩

end Store
end LeagueSync
