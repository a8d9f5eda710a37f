/-!
# LeagueSync.Cache.Backend

What a cache must offer to a store: look-ups, writes and removals of texts, each of which may fail.
A backend that gets out of order still only fails; `Flaky` is any backend of which some operations
fail at present.
-/

namespace LeagueSync

inductive CacheError where
  | backend (reason : String)
  | encoding (reason : String)
  deriving DecidableEq, Repr

def CacheError.message : CacheError → String
  | backend reason => "Cache backend error: " ++ reason
  | encoding reason => "Cache serialization error: " ++ reason

/-- The operations of a cache. Times and lifetimes are in milliseconds. -/
class Backend (σ : Type) where
  /-- Looks a key up at a time. -/
  get : Nat → String → σ → Except CacheError (Option String) × σ
  /-- Stores a value at a time for a while, or for good. -/
  set : Nat → String → String → Option Nat → σ → Except CacheError Unit × σ
  /-- Stores several values at a time for the same while. -/
  setMany : Nat → List (String × String) → Option Nat → σ → Except CacheError Unit × σ
  /-- Drops a value. -/
  delete : String → σ → Except CacheError Unit × σ

inductive CacheOperation where
  | get
  | set
  | setMany
  | delete
  deriving DecidableEq, Repr

def CacheOperation.name : CacheOperation → String
  | get => "get"
  | set => "set"
  | setMany => "set_many"
  | delete => "del"

/-- A backend of which some operations fail, without doing anything. -/
structure Flaky (σ : Type) where
  backend : σ
  fails : CacheOperation → Option CacheError := fun _ => none

namespace Flaky

variable {σ : Type}

def attempt {α : Type} (b : Flaky σ) (op : CacheOperation) (f : σ → Except CacheError α × σ) :
    Except CacheError α × Flaky σ :=
  match b.fails op with
  | some e => (.error e, b)
  | none =>
    let (result, backend) := f b.backend
    (result, { b with backend })

instance [Backend σ] : Backend (Flaky σ) where
  get now key b := b.attempt .get (Backend.get now key)
  set now key data ttl b := b.attempt .set (Backend.set now key data ttl)
  setMany now values ttl b := b.attempt .setMany (Backend.setMany now values ttl)
  delete key b := b.attempt .delete (Backend.delete key)

end Flaky
end LeagueSync
