import LeagueSync.Cache.Backend
import LeagueSync.Cache.Key
import LeagueSync.Json.Decode
import LeagueSync.Json.Writer
import LeagueSync.Table
import LeagueSync.Telemetry.Metrics

/-!
# LeagueSync.Cache.Store

Reading through a cache. A value is stored together with the moment of storing; a look-up that
fails, or finds something else than such a record, counts as a miss, and the value is loaded and
stored. No failure of the backend reaches a reader.
-/

namespace LeagueSync

structure StoreStats where
  hits : Nat := 0
  misses : Nat := 0
  loads : Nat := 0
  errors : Nat := 0
  deriving DecidableEq, Repr

namespace StoreStats

def fields : List String := ["hits", "misses", "loads", "errors"]

def decode (t : Json.Tree) : Option StoreStats := do
  let s ← t.slots fields
  let count := Json.Tree.naturalBelow UInt64.size
  let hits ← s.required "hits" count
  let misses ← s.required "misses" count
  let loads ← s.required "loads" count
  let errors ← s.required "errors" count
  some { hits, misses, loads, errors }

def toJson (s : StoreStats) : Json :=
  .obj [("hits", .ofNat s.hits), ("misses", .ofNat s.misses), ("loads", .ofNat s.loads),
    ("errors", .ofNat s.errors)]

end StoreStats

/-- A kind of cached value, and how long it is kept, in milliseconds. -/
structure Store (V : Type) where
  space : String
  ttl : Option Nat
  timeOfDay : Nat → Timestamp
  encode : V → Json
  decode : Json.Tree → Option V

/-- What a store works on: the clock, the cache behind it and the accounts. -/
structure Shelf (σ : Type) where
  now : Nat
  backend : σ
  stats : StoreStats := {}
  metrics : Metrics := {}

namespace Shelf

variable {σ : Type}

def countHit (h : Shelf σ) (space : String) : Shelf σ :=
  { h with
    stats := { h.stats with hits := h.stats.hits + 1 }
    metrics := h.metrics.addCacheHit space }

def countMiss (h : Shelf σ) (space : String) : Shelf σ :=
  { h with
    stats := { h.stats with misses := h.stats.misses + 1 }
    metrics := h.metrics.addCacheMiss space }

def countLoad (h : Shelf σ) : Shelf σ :=
  { h with stats := { h.stats with loads := h.stats.loads + 1 } }

def countError (h : Shelf σ) : Shelf σ :=
  { h with stats := { h.stats with errors := h.stats.errors + 1 } }

/-- Counts the failure of a write, if it failed. -/
def countFailure {α : Type} (h : Shelf σ) (result : Except CacheError α) : Shelf σ :=
  match result with
  | .ok _ => h
  | .error _ => h.countError

def invalidate [Backend σ] (h : Shelf σ) (key : CacheKey) : Except CacheError Unit × Shelf σ :=
  let (result, backend) := Backend.delete key.text h.backend
  (result, { h with backend }.countFailure result)

end Shelf

namespace Store

variable {V σ τ ε : Type} [Backend σ]

def write (s : Store V) (now : Nat) (v : V) : String :=
  Json.compact (.obj [("value", s.encode v), ("cached_at", .str (s.timeOfDay now).text)])

def readTree (s : Store V) (t : Json.Tree) : Option V := do
  let slots ← t.slots ["value", "cached_at"]
  let v ← slots.required "value" s.decode
  let _ ← slots.required "cached_at" Json.Tree.timestamp
  some v

def read (s : Store V) (text : String) : Option V :=
  (Json.Tree.read? text).bind s.readTree

def get (s : Store V) (key : CacheKey) (h : Shelf σ) : Option V × Shelf σ :=
  match Backend.get h.now key.text h.backend with
  | (.error _, backend) => (none, ({ h with backend }.countError).countMiss s.space)
  | (.ok none, backend) => (none, { h with backend }.countMiss s.space)
  | (.ok (some text), backend) =>
    match s.read text with
    | some v => (some v, { h with backend }.countHit s.space)
    | none => (none, { h with backend }.countMiss s.space)

/-- Stores a value, for a lifetime of its own if one is given. -/
def set (s : Store V) (key : CacheKey) (v : V) (ttl : Option Nat) (h : Shelf σ) :
    Except CacheError Unit × Shelf σ :=
  let (result, backend) := Backend.set h.now key.text (s.write h.now v) (ttl.or s.ttl) h.backend
  (result, { h with backend }.countFailure result)

/-- Stores a value and leaves it at that when the cache fails. -/
def writeThrough (s : Store V) (key : CacheKey) (v : V) (h : Shelf σ) : Shelf σ :=
  (s.set key v none h).2

/-- Stores several values; of no values nothing is written. -/
def cacheMany (s : Store V) (values : List (CacheKey × V)) (h : Shelf σ) : Shelf σ :=
  if values.isEmpty then h
  else
    let texts := values.map fun kv => (kv.1.text, s.write h.now kv.2)
    let (result, backend) := Backend.setMany h.now texts s.ttl h.backend
    { h with backend }.countFailure result

/-- Looks a value up, or loads and stores it. The loader works on something of its own. -/
def getOrLoad (s : Store V) (key : CacheKey) (load : τ → Except ε V × τ) (h : Shelf σ) (w : τ) :
    Except ε V × Shelf σ × τ :=
  match s.get key h with
  | (some v, h) => (.ok v, h, w)
  | (none, h) =>
    let h := h.countLoad
    match load w with
    | (.error e, w) => (.error e, h, w)
    | (.ok v, w) => (.ok v, s.writeThrough key v h, w)

/-- Looks up each key in turn: what was found, and the keys without a value. -/
def getEach (s : Store V) : List CacheKey → Shelf σ → (Table CacheKey V × List CacheKey) × Shelf σ
  | [], h => ((.empty, []), h)
  | key :: keys, h =>
    let (found, h) := s.get key h
    let ((values, missing), h) := s.getEach keys h
    match found with
    | some v => ((values.put key v, missing), h)
    | none => ((values, key :: missing), h)

/-- Looks up several values, each key once, and loads and stores those that are missing. -/
def getAllOrLoad (s : Store V) (keys : List CacheKey)
    (load : List CacheKey → τ → Except ε (List (CacheKey × V)) × τ) (h : Shelf σ) (w : τ) :
    Except ε (Table CacheKey V) × Shelf σ × τ :=
  let ((found, missing), h) := s.getEach keys.eraseDups h
  if missing.isEmpty then (.ok found, h, w)
  else
    let h := h.countLoad
    match load missing w with
    | (.error e, w) => (.error e, h, w)
    | (.ok loaded, w) => (.ok (found.putAll loaded), s.cacheMany loaded h, w)

/-- Loads and stores values without looking any up, and says how many. -/
def warmUp (s : Store V) (load : τ → Except ε (List (CacheKey × V)) × τ) (h : Shelf σ) (w : τ) :
    Except ε Nat × Shelf σ × τ :=
  let h := h.countLoad
  match load w with
  | (.error e, w) => (.error e, h, w)
  | (.ok values, w) => (.ok values.length, s.cacheMany values h, w)

end Store
end LeagueSync
