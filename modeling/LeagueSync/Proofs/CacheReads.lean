import LeagueSync.Cache.Memory
import LeagueSync.Cache.Store

/-!
# LeagueSync.Proofs.CacheReads

What looking a value up and writing one do to a shelf. A look-up asks the backend once, and only a
text that is read as a value counts as found; a write asks it once, and its failure shows nowhere
but in the account.

* `Store.get_counted`: a look-up on any backend, with its account.
* `Store.get_eq`, `Store.writeThrough_eq`: look-ups and writes on any backend, the account apart.
* `Memory.get_lookup`, `Memory.get?_of_get`: a look-up in memory finds what has not expired, and
  stores nothing.
-/

namespace LeagueSync
namespace Store

variable {V σ : Type} [Backend σ]

/-- The value in the answer of a backend. A failure counts as nothing. -/
def found (s : Store V) : Except CacheError (Option String) → Option V
  | .ok (some text) => s.read text
  | _ => none

/-- A look-up counts as a hit if a value is found and as a miss if not, and its failure counts as
an error besides. -/
theorem get_counted (s : Store V) (key : CacheKey) (h : Shelf σ) :
    s.get key h = (s.found (Backend.get h.now key.text h.backend).1, {
      now := h.now
      backend := (Backend.get h.now key.text h.backend).2
      stats := {
        hits := h.stats.hits +
          if (s.found (Backend.get h.now key.text h.backend).1).isSome then 1 else 0
        misses := h.stats.misses +
          if (s.found (Backend.get h.now key.text h.backend).1).isSome then 0 else 1
        loads := h.stats.loads
        errors := h.stats.errors +
          if (Backend.get h.now key.text h.backend).1.isOk then 0 else 1 }
      metrics := if (s.found (Backend.get h.now key.text h.backend).1).isSome then
        h.metrics.addCacheHit s.space else h.metrics.addCacheMiss s.space }) := by
  rw [get]
  obtain ⟨answer, backend⟩ := Backend.get h.now key.text h.backend
  cases answer with
  | error e => rfl
  | ok text? =>
    cases text? with
    | none => rfl
    | some text =>
      cases read : s.read text <;>
        simp [found, read, Shelf.countHit, Shelf.countMiss, Except.isOk, Except.toBool]

theorem get_eq (s : Store V) (key : CacheKey) (h : Shelf σ) :
    ∃ stats, s.get key h = (s.found (Backend.get h.now key.text h.backend).1, {
      now := h.now
      backend := (Backend.get h.now key.text h.backend).2
      stats
      metrics := if (s.found (Backend.get h.now key.text h.backend).1).isSome then
        h.metrics.addCacheHit s.space else h.metrics.addCacheMiss s.space }) :=
  ⟨_, s.get_counted key h⟩

theorem writeThrough_eq (s : Store V) (key : CacheKey) (v : V) (h : Shelf σ) :
    ∃ stats, s.writeThrough key v h = {
      now := h.now
      backend := (Backend.set h.now key.text (s.write h.now v) s.ttl h.backend).2
      stats
      metrics := h.metrics } := by
  rw [writeThrough, set, Option.none_or]
  obtain ⟨result, backend⟩ := Backend.set h.now key.text (s.write h.now v) s.ttl h.backend
  cases result <;> exact ⟨_, rfl⟩

end Store

namespace Memory

theorem get_lookup (m : Memory) (now : Nat) (key : String) :
    (m.get now key).1 = m.lookup now key := by
  rw [get, lookup]
  cases m.items.get? key with
  | none => rfl
  | some v => by_cases expired : v.isExpired now <;> simp [expired]

theorem get?_of_lookup {m : Memory} {now : Nat} {key text : String}
    (h : m.lookup now key = some text) : ∃ v, m.items.get? key = some v ∧ v.data = text := by
  rw [lookup] at h
  cases found : m.items.get? key with
  | none => simp [found] at h
  | some v =>
    by_cases expired : v.isExpired now
    · simp [found, expired] at h
    · refine ⟨v, rfl, ?_⟩
      simpa [found, expired] using h

/-- A look-up stores nothing. -/
theorem get?_of_get {m : Memory} {now : Nat} {key k : String} {v : Stored}
    (h : (m.get now key).2.items.get? k = some v) : m.items.get? k = some v := by
  rw [get] at h
  cases found : m.items.get? key with
  | none => simpa [found] using h
  | some stored =>
    by_cases expired : stored.isExpired now
    · simp only [found, expired, if_true, Table.get?_erase] at h
      by_cases same : k = key
      · simp [same] at h
      · simpa [same] using h
    · simpa [found, expired] using h

end Memory

namespace Store

variable {V : Type}

theorem found_memory (s : Store V) (m : Memory) (now : Nat) (key : String) :
    s.found (Backend.get now key m).1 = (m.lookup now key).bind s.read := by
  rw [← Memory.get_lookup]
  simp only [Backend.get]
  cases (m.get now key).1 <;> rfl

end Store
end LeagueSync
