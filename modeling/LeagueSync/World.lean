import LeagueSync.Cache.Store
import LeagueSync.Database.Operation
import LeagueSync.Failure
import LeagueSync.Http.Client

/-!
# LeagueSync.World

All that the services of the program work on: the link to the remote interface, the durable store,
the cache and the accounts of the two stores that share it. A store works on a `Shelf`, which is
taken out of the world and put back.

* `World.entryShelf_putEntryShelf`: what was put back is what is taken out.
-/

namespace LeagueSync

/-- All that the services work on. -/
structure World (σ : Type) where
  link : Link
  database : Database := {}
  cache : σ
  entryStats : StoreStats := {}
  gameweekStats : StoreStats := {}

namespace World

variable {σ : Type}

def entryShelf (w : World σ) : Shelf σ :=
  ⟨w.link.now, w.cache, w.entryStats, w.link.metrics⟩

def putEntryShelf (w : World σ) (h : Shelf σ) : World σ :=
  { w with link := { w.link with metrics := h.metrics }, cache := h.backend, entryStats := h.stats }

def gameweekShelf (w : World σ) : Shelf σ :=
  ⟨w.link.now, w.cache, w.gameweekStats, w.link.metrics⟩

def putGameweekShelf (w : World σ) (h : Shelf σ) : World σ :=
  { w with
    link := { w.link with metrics := h.metrics }, cache := h.backend, gameweekStats := h.stats }

theorem entryShelf_putEntryShelf (w : World σ) (h : Shelf σ) (now : h.now = w.link.now) :
    (w.putEntryShelf h).entryShelf = h := by
  simp [entryShelf, putEntryShelf, ← now]

end World
end LeagueSync
