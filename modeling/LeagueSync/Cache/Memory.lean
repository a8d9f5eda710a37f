import LeagueSync.Cache.Backend
import LeagueSync.Double.Basic
import LeagueSync.Json.Decode
import LeagueSync.Table

/-!
# LeagueSync.Cache.Memory

A cache in memory. A value may have a moment from which it counts as expired. Expired values stay
until a look-up or a sweep finds them, but no look-up returns them and no statistics count them.

The clock has a last moment. A write whose values would expire after it stores nothing and breaks
its caller down, who gets no answer. `Memory.breakdowns` counts these writes, so a caller got the
answer that is given for it exactly if the count has not risen.

* `Memory.lookup_put`: what a value is found as after it was stored.
-/

namespace LeagueSync

structure Stored where
  data : String
  /-- The moment from which the value counts as expired. -/
  expiresAt : Option Nat
  deriving DecidableEq, Repr

def Stored.isExpired (v : Stored) (now : Nat) : Bool :=
  match v.expiresAt with
  | some time => decide (time ≤ now)
  | none => false

structure Memory where
  items : Table String Stored := .empty
  hits : Nat := 0
  misses : Nat := 0
  expirations : Nat := 0
  /-- The last moment of the clock. It counts seconds in a signed word of 64 bits. -/
  horizon : Nat := 9223372036854775807999
  /-- How many writes broke down. -/
  breakdowns : Nat := 0

structure CacheStats where
  entries : Nat
  totalBytes : Nat
  hits : Nat
  misses : Nat
  expirations : Nat
  deriving DecidableEq

namespace CacheStats

/-- The share of look-ups that found a value, in percent. -/
def hitRate (hits misses : UInt64) : Double :=
  let total := hits + misses
  if total = 0 then .zero
  else .ofNat hits.toNat / .ofNat total.toNat * .ofNat 100

def fields : List String :=
  ["entries", "total_size_bytes", "hits", "misses", "expirations"]

def decode (t : Json.Tree) : Option CacheStats := do
  let s ← t.slots fields
  let count := Json.Tree.naturalBelow UInt64.size
  let entries ← s.required "entries" count
  let totalBytes ← s.required "total_size_bytes" count
  let hits ← s.required "hits" count
  let misses ← s.required "misses" count
  let expirations ← s.required "expirations" count
  some { entries, totalBytes, hits, misses, expirations }

def toJson (s : CacheStats) : Json :=
  .obj [("entries", .ofNat s.entries), ("total_size_bytes", .ofNat s.totalBytes),
    ("hits", .ofNat s.hits), ("misses", .ofNat s.misses), ("expirations", .ofNat s.expirations)]

end CacheStats

namespace Memory

def lookup (m : Memory) (now : Nat) (key : String) : Option String :=
  match m.items.get? key with
  | some v => if v.isExpired now then none else some v.data
  | none => none

/-- Looks a key up. An expired value is dropped. -/
def get (m : Memory) (now : Nat) (key : String) : Option String × Memory :=
  match m.items.get? key with
  | some v =>
    if v.isExpired now then
      (none, { m with
        items := m.items.erase key, misses := m.misses + 1, expirations := m.expirations + 1 })
    else (some v.data, { m with hits := m.hits + 1 })
  | none => (none, { m with misses := m.misses + 1 })

/-- Whether the clock reaches the moment at which a value expires that is written now. -/
def reaches (m : Memory) (now : Nat) : Option Nat → Bool
  | some ttl => decide (now + ttl ≤ m.horizon)
  | none => true

def put (m : Memory) (now : Nat) (key data : String) (ttl : Option Nat) : Memory :=
  if m.reaches now ttl then { m with items := m.items.put key ⟨data, ttl.map (now + ·)⟩ }
  else { m with breakdowns := m.breakdowns + 1 }

/-- Stores several values. Their moment of expiry is found first, even for no values. -/
def putMany (m : Memory) (now : Nat) (values : List (String × String)) (ttl : Option Nat) :
    Memory :=
  if m.reaches now ttl then
    { m with items := m.items.putAll (values.map fun v => (v.1, ⟨v.2, ttl.map (now + ·)⟩)) }
  else { m with breakdowns := m.breakdowns + 1 }

def delete (m : Memory) (key : String) : Memory :=
  { m with items := m.items.erase key }

def contains (m : Memory) (now : Nat) (key : String) : Bool :=
  (m.lookup now key).isSome

def live (m : Memory) (now : Nat) : List Stored :=
  m.items.values.filter fun v => !v.isExpired now

def stats (m : Memory) (now : Nat) : CacheStats where
  entries := (m.live now).length
  totalBytes := ((m.live now).map (·.data.utf8ByteSize)).foldl (· + ·) 0
  hits := m.hits
  misses := m.misses
  expirations := m.expirations

def purge (m : Memory) : Memory :=
  { m with items := .empty }

def purgeExpired (m : Memory) (now : Nat) : Nat × Memory :=
  let items := m.items.keep fun v => !v.isExpired now
  let removed := m.items.size - items.size
  (removed, { m with items, expirations := m.expirations + removed })

theorem lookup_put {m : Memory} {now : Nat} {ttl : Option Nat} (reaches : m.reaches now ttl = true)
    (later : Nat) (key k data : String) :
    (m.put now key data ttl).lookup later k =
      if k = key then
        if Stored.isExpired ⟨data, ttl.map (now + ·)⟩ later then none else some data
      else m.lookup later k := by
  simp only [lookup, put, if_pos reaches, Table.get?_put]
  by_cases h : k = key <;> simp [h]

/-- The answer of a write that breaks down does not reach anyone. -/
instance : Backend Memory where
  get now key m :=
    let (found, m) := m.get now key
    (.ok found, m)
  set now key data ttl m := (.ok (), m.put now key data ttl)
  setMany now values ttl m := (.ok (), m.putMany now values ttl)
  delete key m := (.ok (), m.delete key)

end Memory
end LeagueSync
