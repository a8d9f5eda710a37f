import LeagueSync.Gameweek.Lookup
import LeagueSync.Proofs.CacheReads
import LeagueSync.Proofs.RequestCourse
import Mathlib.Data.List.Basic

/-!
# LeagueSync.Proofs.GameweekSources

Which source answers a look-up of the current gameweek, and what the look-up writes. The cache comes
first, then the durable store, then the remote interface; each is asked only if those before it had
nothing, and only the failure of the last is a failure of the look-up.

* `Client.fetch_calls`: a call is counted once, however often it is attempted.
* `GameweekLookup.current_of_cached?`, `GameweekLookup.current_of_stored?`,
  `GameweekLookup.current_of_failure`, `GameweekLookup.current_of_announced`: the ways of a look-up.
* `GameweekLookup.current_precedence`: all together.
-/

namespace LeagueSync

/-! ## Calls -/

namespace Client

theorem fetch_calls {α : Type} (c : Client) (env : Surroundings) (decode : Json.Tree → Option α)
    (call : Call) (l : Link) {request : Request}
    (resolved : call.resolve? c.baseUrl = .ok request) :
    (c.fetch env decode call l).2.calls = l.calls + 1 := by
  have counted : (c.request env call l).2.calls = l.calls + 1 := by
    simp only [Client.request, resolved, Policy.run]
    rw [Policy.runFrom_keeps (f := Link.calls)]
    · exact fun _ _ => rfl
    · exact fun n l => (c.attempt_link env call request n l).1
  exact counted

end Client

/-! ## The sources -/

namespace GameweekLookup

variable {σ : Type} [Backend σ]

/-- What the cache has for a season. -/
def cached? (s : GameweekLookup) (season : String) (w : World σ) : Option Gameweek :=
  s.store.found (Backend.get w.link.now (s.key season).text w.cache).1

/-- What the durable store has for a season. A failure counts as nothing. -/
def stored? (season : String) (d : Database) : Option Gameweek :=
  match d.findCurrent season with
  | .ok g? => g?
  | .error _ => none

/-- What the remote interface has. -/
def announced (s : GameweekLookup) (link : Link) : Except HttpError SeasonPayload × Link :=
  s.client.fetch s.env SeasonPayload.decode { path := "/bootstrap-static/", limit := .long } link

/-- The link after a look-up in the cache that found nothing. -/
def missed (s : GameweekLookup) (link : Link) : Link :=
  { link with metrics := link.metrics.addCacheMiss s.store.space }

def asked (s : GameweekLookup) (season : String) (w : World σ) : σ :=
  (Backend.get w.link.now (s.key season).text w.cache).2

def written (s : GameweekLookup) (season : String) (now : Nat) (g : Gameweek) (cache : σ) : σ :=
  (Backend.set now (s.key season).text (s.store.write now g) s.store.ttl cache).2

theorem announced_calls (s : GameweekLookup) (link : Link) :
    (s.announced link).2.calls = link.calls + 1 :=
  s.client.fetch_calls s.env SeasonPayload.decode _ link rfl

theorem now_le_announced (s : GameweekLookup) (link : Link) :
    link.now ≤ (s.announced link).2.now := by
  rw [announced, Client.fetch]
  exact (s.client.request_link s.env _ link).1

theorem cache_eq (s : GameweekLookup) (season : String) (g : Gameweek) (w : World σ) :
    ∃ gameweekStats, s.cache season g w =
      { w with cache := s.written season w.link.now g w.cache, gameweekStats } := by
  obtain ⟨stats, wrote⟩ := s.store.writeThrough_eq (s.key season) g w.gameweekShelf
  exact ⟨stats, by rw [cache, wrote]; rfl⟩

theorem get_eq (s : GameweekLookup) (season : String) (w : World σ) :
    ∃ stats, s.store.get (s.key season) w.gameweekShelf = (s.cached? season w, {
      now := w.link.now
      backend := s.asked season w
      stats
      metrics := if (s.cached? season w).isSome then w.link.metrics.addCacheHit s.store.space
        else w.link.metrics.addCacheMiss s.store.space }) :=
  s.store.get_eq (s.key season) w.gameweekShelf

/-! ## One source after the other -/

theorem fetch_of_error (s : GameweekLookup) (season : String) (w : World σ) {e : HttpError}
    {link : Link} (told : s.announced w.link = (.error e, link)) :
    s.fetch season w = (.error (.http e), { w with link }) := by
  rw [announced] at told
  simp only [fetch, told]

/-- What is told is stored as a whole, and what is current of it is cached. -/
theorem fetch_of_ok (s : GameweekLookup) (season : String) (w : World σ) {p : SeasonPayload}
    {link : Link} (told : s.announced w.link = (.ok p, link)) :
    ∃ gameweekStats, s.fetch season w = (.ok p.current?, { w with
      link
      database := (w.database.upsertGameweeks season p.gameweeks).2
      cache := match p.current? with
        | some g => s.written season link.now g w.cache
        | none => w.cache
      gameweekStats }) := by
  rw [announced] at told
  simp only [fetch, told]
  cases p.current? with
  | none => exact ⟨w.gameweekStats, rfl⟩
  | some g =>
    obtain ⟨stats, wrote⟩ := s.cache_eq season g { w with
      link, database := (w.database.upsertGameweeks season p.gameweeks).2 }
    exact ⟨stats, congrArg (Prod.mk _) wrote⟩

theorem current_of_cached? (s : GameweekLookup) (w : World σ) {g : Gameweek}
    (hit : s.cached? (s.season w.link.now) w = some g) :
    ∃ gameweekStats, s.current w = (.ok (some g), { w with
      link := { w.link with metrics := w.link.metrics.addCacheHit s.store.space }
      cache := s.asked (s.season w.link.now) w
      gameweekStats }) := by
  obtain ⟨stats, got⟩ := s.get_eq (s.season w.link.now) w
  rw [hit] at got
  exact ⟨stats, by rw [current, got]; rfl⟩

theorem current_of_stored? (s : GameweekLookup) (w : World σ) {g : Gameweek}
    (miss : s.cached? (s.season w.link.now) w = none)
    (row : stored? (s.season w.link.now) w.database = some g) :
    ∃ gameweekStats, s.current w = (.ok (some g), { w with
      link := s.missed w.link
      cache := s.written (s.season w.link.now) w.link.now g (s.asked (s.season w.link.now) w)
      gameweekStats }) := by
  obtain ⟨stats, got⟩ := s.get_eq (s.season w.link.now) w
  rw [miss] at got
  have found : w.database.findCurrent (s.season w.link.now) = .ok (some g) := by
    rw [stored?] at row
    split at row
    · next found => rw [found, row]
    · cases row
  obtain ⟨stats', wrote⟩ := s.cache_eq (s.season w.link.now) g (w.putGameweekShelf {
    now := w.link.now
    backend := s.asked (s.season w.link.now) w
    stats
    metrics := w.link.metrics.addCacheMiss s.store.space })
  refine ⟨stats', ?_⟩
  rw [current, got]
  simp only [World.putGameweekShelf, found] at wrote ⊢
  exact congrArg (Prod.mk _) wrote

theorem current_of_neither (s : GameweekLookup) (w : World σ)
    (miss : s.cached? (s.season w.link.now) w = none)
    (no_row : stored? (s.season w.link.now) w.database = none) :
    ∃ gameweekStats, s.current w = s.fetch (s.season w.link.now) { w with
      link := s.missed w.link, cache := s.asked (s.season w.link.now) w, gameweekStats } := by
  obtain ⟨stats, got⟩ := s.get_eq (s.season w.link.now) w
  rw [miss] at got
  refine ⟨stats, ?_⟩
  rw [current, got]
  rw [stored?] at no_row
  cases found : w.database.findCurrent (s.season w.link.now) with
  | error e =>
    simp only [World.putGameweekShelf, found]
    rfl
  | ok g? =>
    rw [found] at no_row
    simp only [World.putGameweekShelf, found, show g? = none from no_row]
    rfl

theorem current_of_failure (s : GameweekLookup) (w : World σ)
    (miss : s.cached? (s.season w.link.now) w = none)
    (no_row : stored? (s.season w.link.now) w.database = none) {e : HttpError} {link : Link}
    (told : s.announced (s.missed w.link) = (.error e, link)) :
    ∃ gameweekStats, s.current w = (.error (.http e), { w with
      link, cache := s.asked (s.season w.link.now) w, gameweekStats }) := by
  obtain ⟨stats, ran⟩ := s.current_of_neither w miss no_row
  exact ⟨stats, ran.trans (s.fetch_of_error _ _ told)⟩

theorem current_of_announced (s : GameweekLookup) (w : World σ)
    (miss : s.cached? (s.season w.link.now) w = none)
    (no_row : stored? (s.season w.link.now) w.database = none) {p : SeasonPayload} {link : Link}
    (told : s.announced (s.missed w.link) = (.ok p, link)) :
    ∃ gameweekStats, s.current w = (.ok p.current?, { w with
      link
      database := (w.database.upsertGameweeks (s.season w.link.now) p.gameweeks).2
      cache := match p.current? with
        | some g => s.written (s.season w.link.now) link.now g (s.asked (s.season w.link.now) w)
        | none => s.asked (s.season w.link.now) w
      gameweekStats }) := by
  obtain ⟨stats, ran⟩ := s.current_of_neither w miss no_row
  obtain ⟨stats', fetched⟩ := s.fetch_of_ok (s.season w.link.now) { w with
    link := s.missed w.link, cache := s.asked (s.season w.link.now) w, gameweekStats := stats } told
  exact ⟨stats', ran.trans fetched⟩

/-- The link after a look-up that asked no further than the durable store. -/
def hitLink (s : GameweekLookup) (season : String) (w : World σ) : Link :=
  if (s.cached? season w).isSome then
    { w.link with metrics := w.link.metrics.addCacheHit s.store.space }
  else s.missed w.link

/-- The answer and the link of a look-up depend on what the sources say, and only on what those say
that are asked. -/
theorem current_answer (s : GameweekLookup) (w : World σ) :
    (s.current w).1 = (match (s.cached? (s.season w.link.now) w).or
        (stored? (s.season w.link.now) w.database) with
      | some g => .ok (some g)
      | none => ((s.announced (s.missed w.link)).1.map SeasonPayload.current?).mapError .http) ∧
    (s.current w).2.link = (match (s.cached? (s.season w.link.now) w).or
        (stored? (s.season w.link.now) w.database) with
      | some _ => s.hitLink (s.season w.link.now) w
      | none => (s.announced (s.missed w.link)).2) := by
  cases hit : s.cached? (s.season w.link.now) w with
  | some g =>
    obtain ⟨stats, ran⟩ := s.current_of_cached? w hit
    simp only [ran, Option.some_or, hitLink, hit, Option.isSome_some, if_true, and_self]
  | none =>
    cases row : stored? (s.season w.link.now) w.database with
    | some g =>
      obtain ⟨stats, ran⟩ := s.current_of_stored? w hit row
      simp [ran, hitLink, hit]
    | none =>
      cases told : s.announced (s.missed w.link) with
      | mk result link =>
        cases result with
        | error e =>
          obtain ⟨stats, ran⟩ := s.current_of_failure w hit row told
          rw [ran]
          exact ⟨rfl, rfl⟩
        | ok p =>
          obtain ⟨stats, ran⟩ := s.current_of_announced w hit row told
          rw [ran]
          exact ⟨rfl, rfl⟩

/-- What a look-up writes: what it is told to the durable store, and what the cache did not have to
the cache. -/
theorem current_writes (s : GameweekLookup) (w : World σ) :
    (s.current w).2.database = (match (s.cached? (s.season w.link.now) w).or
        (stored? (s.season w.link.now) w.database), (s.announced (s.missed w.link)).1 with
      | none, .ok p => (w.database.upsertGameweeks (s.season w.link.now) p.gameweeks).2
      | _, _ => w.database) ∧
    (s.current w).2.cache = (match s.cached? (s.season w.link.now) w, (s.current w).1 with
      | none, .ok (some g) => s.written (s.season w.link.now) (s.current w).2.link.now g
          (s.asked (s.season w.link.now) w)
      | _, _ => s.asked (s.season w.link.now) w) := by
  cases hit : s.cached? (s.season w.link.now) w with
  | some g =>
    obtain ⟨stats, ran⟩ := s.current_of_cached? w hit
    simp only [ran, Option.some_or, and_self]
  | none =>
    cases row : stored? (s.season w.link.now) w.database with
    | some g =>
      obtain ⟨stats, ran⟩ := s.current_of_stored? w hit row
      simp [ran, missed]
    | none =>
      cases told : s.announced (s.missed w.link) with
      | mk result link =>
        cases result with
        | error e =>
          obtain ⟨stats, ran⟩ := s.current_of_failure w hit row told
          rw [ran]
          exact ⟨rfl, rfl⟩
        | ok p =>
          obtain ⟨stats, ran⟩ := s.current_of_announced w hit row told
          rw [ran]
          refine ⟨rfl, ?_⟩
          cases p.current? <;> rfl

theorem hitLink_eq (s : GameweekLookup) (season : String) (w : World σ) :
    s.hitLink season w = { w.link with metrics := (s.hitLink season w).metrics } := by
  rw [hitLink]
  split <;> rfl

/-- A look-up fails exactly if nobody else knows and the remote interface fails. -/
theorem current_error_iff (s : GameweekLookup) (w : World σ) (e : SyncError) :
    (s.current w).1 = .error e ↔
      (s.cached? (s.season w.link.now) w).or (stored? (s.season w.link.now) w.database) = none ∧
        ∃ cause, (s.announced (s.missed w.link)).1 = .error cause ∧ e = .http cause := by
  rw [(s.current_answer w).1]
  cases (s.cached? (s.season w.link.now) w).or (stored? (s.season w.link.now) w.database) with
  | some g => simp
  | none =>
    cases (s.announced (s.missed w.link)).1 with
    | ok p => simp [Except.map, Except.mapError]
    | error cause => simp [Except.map, Except.mapError, eq_comm]

/-- Two worlds, over backends of any kind, whose sources say the same: what the durable store says
counts only if the cache has nothing. -/
theorem current_congr (s : GameweekLookup) {τ : Type} [Backend τ] {w : World σ} {w' : World τ}
    (link : w'.link = w.link)
    (cached : s.cached? (s.season w.link.now) w' = s.cached? (s.season w.link.now) w)
    (stored : s.cached? (s.season w.link.now) w = none →
      stored? (s.season w.link.now) w'.database = stored? (s.season w.link.now) w.database) :
    (s.current w').1 = (s.current w).1 ∧ (s.current w').2.link = (s.current w).2.link := by
  have known : (s.cached? (s.season w.link.now) w').or
        (stored? (s.season w.link.now) w'.database) =
      (s.cached? (s.season w.link.now) w).or (stored? (s.season w.link.now) w.database) := by
    rw [cached]
    cases hit : s.cached? (s.season w.link.now) w with
    | some g => rw [Option.some_or, Option.some_or]
    | none => rw [Option.none_or, Option.none_or, stored hit]
  have hits : s.hitLink (s.season w.link.now) w' = s.hitLink (s.season w.link.now) w := by
    rw [hitLink, hitLink, link, cached]
  obtain ⟨answer, after⟩ := s.current_answer w
  obtain ⟨answer', after'⟩ := s.current_answer w'
  rw [link, known] at answer' after'
  rw [hits] at after'
  exact ⟨answer'.trans answer.symm, after'.trans after.symm⟩

/-- The cache answers if it has the gameweek, else the durable store if it has one, else the remote
interface, which is called only then, once, and whose failure is the only one of the look-up. What
the cache did not have is cached, and what the remote interface says is stored as a whole, all under
the season at the start. Whether these writes fail makes no difference to the answer and the
link. -/
theorem current_precedence (s : GameweekLookup) (w : World σ) :
    let season := s.season w.link.now
    let known := (s.cached? season w).or (stored? season w.database)
    let told := s.announced (s.missed w.link)
    let after := s.current w
    (∀ g, known = some g → after.1 = .ok (some g)) ∧
    (∀ p, known = none → told.1 = .ok p → after.1 = .ok p.current?) ∧
    (∀ e, after.1 = .error e ↔ known = none ∧ ∃ cause, told.1 = .error cause ∧ e = .http cause) ∧
    after.2.link.calls = w.link.calls + (if known = none then 1 else 0) ∧
    (known ≠ none → after.2.link = { w.link with metrics := after.2.link.metrics }) ∧
    after.2.database = (match known, told.1 with
      | none, .ok p => (w.database.upsertGameweeks season p.gameweeks).2
      | _, _ => w.database) ∧
    after.2.cache = (match s.cached? season w, after.1 with
      | none, .ok (some g) => s.written season after.2.link.now g (s.asked season w)
      | _, _ => s.asked season w) ∧
    ∀ {τ : Type} [Backend τ] (w' : World τ), w'.link = w.link →
      s.cached? season w' = s.cached? season w →
      (s.cached? season w = none → stored? season w'.database = stored? season w.database) →
      (s.current w').1 = after.1 ∧ (s.current w').2.link = after.2.link := by
  intro season known told after
  obtain ⟨answer, link⟩ :
      after.1 = (match known with
        | some g => .ok (some g)
        | none => (told.1.map SeasonPayload.current?).mapError .http) ∧
      after.2.link = (match known with
        | some _ => s.hitLink season w
        | none => told.2) := s.current_answer w
  obtain ⟨database, cache⟩ := s.current_writes w
  refine ⟨?_, ?_, s.current_error_iff w, ?_, ?_, database, cache, ?_⟩
  · intro g given
    rw [answer, given]
  · intro p nothing heard
    rw [answer, nothing, heard]
    rfl
  · rw [link]
    cases known with
    | some g =>
      rw [hitLink_eq]
      rfl
    | none => exact s.announced_calls (s.missed w.link)
  · intro given
    rw [link]
    cases isKnown : known with
    | some g => exact s.hitLink_eq season w
    | none => exact absurd isKnown given
  · intro τ _ w' sameLink sameCached sameStored
    exact s.current_congr sameLink sameCached sameStored

/-- The cache and the durable store fail at whatever they are asked. The remote interface marks two
gameweeks as current, and the first one is the answer. -/
theorem current_precedence_outage :
    let body := "\x7b\"events\":[\x7b\"id\":5,\"name\":\"a\",\"is_current\":true\x7d," ++
      "\x7b\"id\":7,\"name\":\"b\",\"is_current\":true\x7d]\x7d"
    let env : Surroundings := {
      transport := fun _ _ => ⟨some (3, .answer 200 [] (some body))⟩
      timeOfDay := fun _ => .epoch }
    let s : GameweekLookup := {
      client := {
        baseUrl := "https://host"
        policy := .ofConfig {}
        mode := .failFast
        timeouts := {}
        permits := 1 }
      env
      store := storeOf env none
      scope := "league"
      pinned := some "2425" }
    let w : World (Flaky Memory) := {
      link := .start {} 0
      database := { fails := fun _ => some .missing }
      cache := { backend := {}, fails := fun _ => some (.backend "down") } }
    let known := (s.cached? "2425" w).or (stored? "2425" w.database)
    known = none ∧ (s.current w).1 = .ok (some ⟨5, "a", none, true, false, false⟩) ∧
      (s.current w).2.link.calls = 1 ∧ (s.current w).2.database = w.database := by
  intro body env s w known
  have nothing : known = none := rfl
  have told : (s.announced (s.missed w.link)).1 =
      .ok ⟨[⟨5, "a", none, true, false, false⟩, ⟨7, "b", none, true, false, false⟩]⟩ := by
    decide +kernel
  obtain ⟨-, heard, -, calls, -, database, -, -⟩ := s.current_precedence w
  refine ⟨nothing, heard _ nothing told, calls, database.trans ?_⟩
  rw [told]
  rfl

end GameweekLookup
end LeagueSync
