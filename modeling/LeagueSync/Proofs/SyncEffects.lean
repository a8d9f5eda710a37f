import LeagueSync.Proofs.EntryCoherence
import LeagueSync.Proofs.RequestedWait
import LeagueSync.Proofs.StoredTimes

/-!
# LeagueSync.Proofs.SyncEffects

What one sync of an entry leaves behind. It fetches, checks whose entry came, writes the row and
caches it, and each of these may fail. A sync that fails leaves the durable store and the cache as
they were. One that succeeds changes the row of its id and at most the cached text of its id, and
nothing else.

* `Client.HearsAt.of_resultAt`: a response, or the refusal of a request, was heard as a reply.
* `EntryService.told_ok`, `EntryService.told_missing_iff`: what it means for the last reply.
* `EntryService.Reported`: what a sync reports, by what it was told.
* `EntryService.sync_cases`: what a sync reports and what it writes, on any cache.
* `EntryService.sync_all_or_nothing`: all together, on a cache in memory that may fail.
-/

namespace LeagueSync

/-! ## Replies -/

theorem Reply.outcome_eq_ok_iff (now : Timestamp) (reply : Reply) (r : Response) :
    reply.outcome now = .ok r ↔
      200 ≤ r.status ∧ r.status < 300 ∧ reply = .answer r.status r.headers (some r.body) := by
  constructor
  · intro heard
    cases reply with
    | lost reason => cases heard
    | answer status headers body =>
      simp only [outcome] at heard
      split at heard
      · next success =>
        cases body with
        | none => cases heard
        | some text =>
          cases heard
          exact ⟨success.1, success.2, rfl⟩
      · split at heard
        · cases heard
        · split at heard <;> cases heard
  · rintro ⟨low, high, rfl⟩
    rw [outcome, if_pos ⟨low, high⟩]

theorem Reply.outcome_eq_missing_iff (now : Timestamp) (reply : Reply) :
    reply.outcome now = .error (.client 404) ↔
      ∃ headers body, reply = .answer 404 headers body := by
  constructor
  · intro heard
    cases reply with
    | lost reason => cases heard
    | answer status headers body =>
      simp only [outcome] at heard
      split at heard
      · cases body <;> cases heard
      · split at heard
        · cases heard
        · split at heard
          · cases heard
          · cases heard
            exact ⟨headers, body, rfl⟩
  · rintro ⟨headers, body, rfl⟩
    rfl

theorem Response.decode_eq_ok_iff {α : Type} (decode : Json.Tree → Option α) (r : Response)
    (a : α) : r.decode decode = .ok a ↔ (Json.Tree.read? r.body).bind decode = some a := by
  rw [Response.decode]
  cases (Json.Tree.read? r.body).bind decode <;> simp

theorem Response.decode_error {α : Type} {decode : Json.Tree → Option α} {r : Response}
    {e : HttpError} (failed : r.decode decode = .error e) : e = .undecodable "unexpected body" := by
  rw [Response.decode] at failed
  cases said : (Json.Tree.read? r.body).bind decode with
  | none =>
    rw [said] at failed
    exact (Except.error.inj failed).symm
  | some a =>
    rw [said] at failed
    cases failed

/-- A text that is written into memory, unless the write fails. -/
theorem Flaky.set_memory (b : Flaky Memory) (now : Nat) (key data : String) (ttl : Option Nat) :
    (Backend.set now key data ttl b).2 =
      match b.fails .set with
      | some _ => b
      | none => { b with backend := b.backend.put now key data ttl } := by
  simp only [Backend.set, attempt]
  cases b.fails .set <;> rfl

namespace Client

variable {c : Client} {env : Surroundings} {call : Call} {request : Request} {l : Link} {n : Nat}

theorem takeToken_error {mode : LimitMode} {l : Link} {e : HttpError}
    (refused : (takeToken mode l).1 = .error e) :
    ∃ remaining nextIn, e = .throttled remaining nextIn := by
  rw [takeToken] at refused
  split at refused
  · cases refused
  · split at refused
    · cases refused
      exact ⟨_, _, rfl⟩
    · dsimp only at refused
      split at refused
      · cases refused
      · cases refused
        exact ⟨_, _, rfl⟩

/-- What is neither a refusal of the bucket nor silence is what a reply means that was heard. -/
theorem HearsAt.of_resultAt {result : Except HttpError Response}
    (gave : c.resultAt env call request l n = result)
    (sent : ∀ remaining nextIn, result ≠ .error (.throttled remaining nextIn))
    (inTime : result ≠ .error .timedOut) :
    ∃ reply now, c.HearsAt env call request l n reply ∧ reply.outcome now = result := by
  rw [resultAt] at gave
  unfold HearsAt
  generalize c.linkAt env call request l n = m at gave ⊢
  cases token : (takeToken c.mode m).1 with
  | error e =>
    obtain ⟨remaining, nextIn, rfl⟩ := takeToken_error token
    have took : takeToken c.mode m =
        (.error (.throttled remaining nextIn), (takeToken c.mode m).2) := Prod.ext token rfl
    rw [attempt, took] at gave
    exact absurd gave.symm (sent remaining nextIn)
  | ok =>
    obtain ⟨now, bucket, taken, -, -⟩ := takeToken_link c.mode m
    have took : takeToken c.mode m = (.ok (), { m with now, bucket }) := Prod.ext token taken
    simp only [attempt, took, send, Exchange.outcome] at gave
    cases came : (env.transport m.sent request).reply? with
    | none =>
      rw [came] at gave
      exact absurd gave.symm inTime
    | some exchange =>
      obtain ⟨after, reply⟩ := exchange
      rw [came] at gave
      dsimp only at gave
      split at gave
      · exact absurd gave.symm inTime
      · next early => exact ⟨reply, _, ⟨token, after, came, Nat.not_le.1 early⟩, gave⟩

end Client

namespace EntryService

/-! ## What is told -/

/-- The call that asks for an entry. -/
def call (id : EntryId) : Call := { path := s!"/entry/{id}/" }

/-- What is sent for an entry. -/
def request (s : EntryService) (id : EntryId) : Request :=
  ⟨"GET", addressOf s.client.baseUrl s!"/entry/{id}/", [], [], none⟩

/-- What the remote interface tells of an entry, and the link after that. -/
def told (s : EntryService) (id : EntryId) (l : Link) : Except HttpError EntryPayload × Link :=
  s.client.fetch s.env EntryPayload.decode (call id) l

/-- The reply that the last attempt to fetch an entry hears. -/
def HearsLast (s : EntryService) (id : EntryId) (l : Link) (reply : Reply) : Prop :=
  s.client.HearsAt s.env (call id) (s.request id) l
    (s.client.lastOf s.env (call id) (s.request id) l) reply

/-- What the last attempt to fetch an entry gives. -/
def lastResult (s : EntryService) (id : EntryId) (l : Link) : Except HttpError Response :=
  s.client.resultAt s.env (call id) (s.request id) l
    (s.client.lastOf s.env (call id) (s.request id) l)

theorem told_fst (s : EntryService) (id : EntryId) (l : Link) :
    (s.told id l).1 = (s.client.policy.conclude (s.lastResult id l)).bind
      (Response.decode EntryPayload.decode) := by
  have ended : (s.client.request s.env (call id) l).1 =
      s.client.policy.conclude (s.lastResult id l) :=
    congrArg Prod.fst (Client.request_eq (resolve?_entry s.client.baseUrl id))
  rw [told, Client.fetch, ← ended]

/-- A payload is what a successful reply says. -/
theorem told_ok {s : EntryService} {id : EntryId} {l : Link} {p : EntryPayload}
    (said : (s.told id l).1 = .ok p) :
    ∃ status headers body, 200 ≤ status ∧ status < 300 ∧
      s.HearsLast id l (.answer status headers (some body)) ∧
      (Json.Tree.read? body).bind EntryPayload.decode = some p := by
  rw [told_fst] at said
  cases last : s.lastResult id l with
  | error e =>
    rw [last] at said
    cases said
  | ok r =>
    rw [last] at said
    obtain ⟨reply, now, heard, outcome⟩ := Client.HearsAt.of_resultAt last (by simp) (by simp)
    obtain ⟨low, high, rfl⟩ := (Reply.outcome_eq_ok_iff now reply r).1 outcome
    exact ⟨r.status, r.headers, r.body, low, high, heard, (Response.decode_eq_ok_iff _ r p).1 said⟩

/-- A fetch ends with status 404 just if the last reply has it and is not worth another attempt. -/
theorem told_missing_iff (s : EntryService) (id : EntryId) (l : Link) :
    (s.told id l).1 = .error (.client 404) ↔ s.client.policy.retries (.client 404) = false ∧
      ∃ headers body, s.HearsLast id l (.answer 404 headers body) := by
  rw [told_fst]
  constructor
  · intro missing
    cases last : s.lastResult id l with
    | ok r =>
      -- A body that cannot be decoded is another failure than a status.
      rw [last] at missing
      cases Response.decode_error missing
    | error e =>
      rw [last] at missing
      simp only [Policy.conclude, Except.bind, Except.error.injEq] at missing
      split at missing
      · cases missing
      · next final =>
        subst missing
        obtain ⟨reply, now, heard, outcome⟩ := Client.HearsAt.of_resultAt last (by simp) (by simp)
        obtain ⟨headers, body, rfl⟩ := (Reply.outcome_eq_missing_iff now reply).1 outcome
        exact ⟨Bool.eq_false_iff.2 final, headers, body, heard⟩
  · rintro ⟨final, headers, body, heard⟩
    obtain ⟨now, last⟩ := heard.resultAt_eq
    rw [lastResult, last]
    simp only [(Reply.outcome_eq_missing_iff now _).2 ⟨headers, body, rfl⟩, Policy.conclude, final]
    rfl

/-! ## What is reported -/

/-- What a sync reports, by what it was told: the last case is its success. -/
inductive Reported (id : EntryId) (gameweek : Option GameweekId) (now : Timestamp) (d : Database) :
    Except HttpError EntryPayload → Except SyncError Entry → Prop where
  | missing : Reported id gameweek now d (.error (.client 404)) (.error (.notFound id))
  | failed {e : HttpError} (other : e ≠ .client 404) :
    Reported id gameweek now d (.error e) (.error (.http e))
  | foreign {p : EntryPayload} (foreign : p.id ≠ id) : Reported id gameweek now d (.ok p)
    (.error (.invalid s!"requested entry {id} but upstream returned {p.id}"))
  | refused {p : EntryPayload} {e : DatabaseError} (own : p.id = id)
    (fails : d.fails .upsertEntry = some e) :
    Reported id gameweek now d (.ok p) (.error (.database e))
  | stored {p : EntryPayload} (own : p.id = id) (writes : d.fails .upsertEntry = none) :
    Reported id gameweek now d (.ok p) (.ok (p.toEntry gameweek now))

section

variable {σ : Type} [Backend σ] {s : EntryService} {id : EntryId} {gameweek : Option GameweekId}
  {w : World σ} {l link : Link} {e : HttpError} {p : EntryPayload}

theorem fetch_of_missing (said : s.told id l = (.error (.client 404), link)) :
    s.fetch id l = (.error (.notFound id), link) := by
  rw [told, call] at said
  simp only [fetch, said]

theorem fetch_of_error (said : s.told id l = (.error e, link)) (other : e ≠ .client 404) :
    s.fetch id l = (.error (.http e), link) := by
  rw [told, call] at said
  simp only [fetch, said]

theorem fetch_of_ok (said : s.told id l = (.ok p, link)) :
    s.fetch id l = if p.id = id then (.ok p, link)
      else (.error (.invalid s!"requested entry {id} but upstream returned {p.id}"), link) := by
  rw [told, call] at said
  simp only [fetch, said]

theorem sync_of_fetch_error {e : SyncError} (fetched : s.fetch id w.link = (.error e, link)) :
    s.sync id gameweek w = (.error e, { w with link }) := by
  simp only [sync, fetched]

theorem sync_of_refused {e : DatabaseError} (fetched : s.fetch id w.link = (.ok p, link))
    (fails : w.database.fails .upsertEntry = some e) :
    s.sync id gameweek w = (.error (.database e), { w with link }) := by
  simp only [sync, fetched, Database.upsertEntry, Database.perform, fails]

variable (gameweek) in
theorem sync_of_stored (fetched : s.fetch id w.link = (.ok p, link))
    (writes : w.database.fails .upsertEntry = none) :
    let e := p.toEntry gameweek (s.env.timeOfDay link.now)
    let after := s.sync id gameweek w
    after.1 = .ok e ∧
    after.2.database = { w.database with tables := w.database.tables.upsertEntry e } ∧
    after.2.cache = (Backend.set link.now (s.key id).text (s.store.write link.now e) s.store.ttl
      w.cache).2 := by
  intro e after
  obtain ⟨stats, wrote⟩ := s.store.writeThrough_eq (s.key id) e
    ({ w with link } : World σ).entryShelf
  simp only [after, sync, fetched, Database.upsertEntry, Database.perform, writes]
  exact ⟨rfl, rfl, congrArg Shelf.backend wrote⟩

end

/-- Everything that a sync can come to. -/
theorem sync_cases {σ : Type} [Backend σ] (s : EntryService) (id : EntryId)
    (gameweek : Option GameweekId) (w : World σ) :
    let told := s.told id w.link
    let after := s.sync id gameweek w
    Reported id gameweek (s.env.timeOfDay told.2.now) w.database told.1 after.1 ∧
      match after.1 with
      | .error _ => after.2 = { w with link := told.2 }
      | .ok e =>
        after.2.database = { w.database with tables := w.database.tables.upsertEntry e } ∧
        after.2.cache = (Backend.set told.2.now (s.key id).text (s.store.write told.2.now e)
          s.store.ttl w.cache).2 := by
  intro told after
  cases said : s.told id w.link with
  | mk answer link =>
    simp only [told, after, said]
    cases answer with
    | error e =>
      by_cases gone : e = .client 404
      · subst gone
        rw [sync_of_fetch_error (fetch_of_missing said)]
        exact ⟨.missing, rfl⟩
      · rw [sync_of_fetch_error (fetch_of_error said gone)]
        exact ⟨.failed gone, rfl⟩
    | ok p =>
      have fetched := fetch_of_ok said
      by_cases own : p.id = id
      · rw [if_pos own] at fetched
        cases fails : w.database.fails .upsertEntry with
        | some e =>
          rw [sync_of_refused fetched fails]
          exact ⟨.refused own fails, rfl⟩
        | none =>
          obtain ⟨answer, written⟩ := sync_of_stored gameweek fetched fails
          simp only [answer]
          exact ⟨.stored own fails, written⟩
      · rw [if_neg own] at fetched
        rw [sync_of_fetch_error fetched]
        exact ⟨.foreign own, rfl⟩

/-! ## What is left -/

/-- What a sync leaves that gave an entry: the row of its id and, unless the cache failed or the
write broke down, the cached text of its id are new, and all else is as it was. -/
structure Synced (s : EntryService) (ttl : Option Nat) (id : EntryId) (now : Nat)
    (w after : World (Flaky Memory)) (e : Entry) : Prop where
  row : after.database.tables.entries.get? id = some (.ofEntry e)
  found : w.database.fails .findEntry = none → e.updatedAt.HasPlainYear →
    after.database.findEntry id = .ok (some e)
  otherRows : ∀ id', id' ≠ id →
    after.database.tables.entries.get? id' = w.database.tables.entries.get? id'
  otherTables : after.database = { w.database with
    tables := { w.database.tables with entries := after.database.tables.entries } }
  uncached : ∀ reason, w.cache.fails .set = some reason → after.cache = w.cache
  broken : w.cache.fails .set = none → w.cache.backend.reaches now ttl = false →
    after.cache.backend = { w.cache.backend with breakdowns := w.cache.backend.breakdowns + 1 }
  cached : w.cache.fails .set = none → w.cache.backend.reaches now ttl = true →
    ∃ text, s.store.read text = some e ∧
    after.cache.backend.items.get? (s.key id).text = some ⟨text, ttl.map (now + ·)⟩ ∧
    ∀ later, (∀ lifetime, ttl = some lifetime → later < now + lifetime) →
      after.cache.backend.lookup later (s.key id).text = some text
  otherKeys : ∀ key, key ≠ (s.key id).text →
    after.cache.backend.items.get? key = w.cache.backend.items.get? key

theorem Synced.of_stored {s : EntryService} {ttl : Option Nat} {id : EntryId} {now : Nat}
    {w after : World (Flaky Memory)} {e : Entry} (stores : s.store = storeOf s.env ttl)
    (own : e.id = id) (onClock : e.OnClock)
    (database : after.database = { w.database with tables := w.database.tables.upsertEntry e })
    (cache : after.cache =
      (Backend.set now (s.key id).text (s.store.write now e) s.store.ttl w.cache).2) :
    s.Synced ttl id now w after e := by
  have kept : s.store.ttl = ttl := by rw [stores]; rfl
  rw [Flaky.set_memory, kept] at cache
  have rows (id' : EntryId) : after.database.tables.entries.get? id' =
      if id' = id then some (.ofEntry e) else w.database.tables.entries.get? id' := by
    rw [database, ← own]
    exact Tables.entries_upsert ..
  refine {
    row := by rw [rows, if_pos rfl]
    found := fun reads plain => ?_
    otherRows := fun id' other => by rw [rows, if_neg other]
    otherTables := by rw [database]; rfl
    uncached := fun reason fails => by rw [cache, fails]
    broken := fun writes breaks => ?_
    cached := fun writes reaches => ?_
    otherKeys := fun key other => ?_ }
  · rw [Database.findEntry, Database.ask, database, reads]
    simp only [Tables.findEntry_upsertEntry _ plain, own, if_true, onClock.shown]
    rfl
  · rw [cache, writes]
    exact Memory.putMany_of_not_reaches breaks [((s.key id).text, s.store.write now e)]
  · rw [writes] at cache
    have item : after.cache.backend.items.get? (s.key id).text =
        some ⟨s.store.write now e, ttl.map (now + ·)⟩ := by
      simp only [cache, Memory.put, if_pos reaches, Table.get?_put, if_true]
    have read := read_write stores e now
    rw [onClock.shown] at read
    refine ⟨_, read, item, fun later inTime => ?_⟩
    have live : Stored.isExpired ⟨s.store.write now e, ttl.map (now + ·)⟩ later = false := by
      cases ttl with
      | none => rfl
      | some lifetime => exact decide_eq_false (Nat.not_le.2 (inTime lifetime rfl))
    simp only [Memory.lookup, item, live]
    rfl
  · rw [cache]
    cases w.cache.fails .set with
    | some reason => rfl
    | none =>
      simp only [Memory.put]
      split
      · exact (Table.get?_put ..).trans (if_neg other)
      · rfl

/-- One sync, whatever the remote interface, the durable store and the cache do. It reports what it
was told. If that is a failure, the store and the cache are as they were. If it is an entry, that
comes from the payload in the last reply, which has the id that was asked for, and its row and its
cached text are all that changed. An entry is reported as missing just if the last reply has status
404, which no configured policy attempts again. -/
theorem sync_all_or_nothing (s : EntryService) {ttl : Option Nat}
    (stores : s.store = storeOf s.env ttl) (id : EntryId) (gameweek : Option GameweekId)
    (w : World (Flaky Memory)) :
    let told := s.told id w.link
    let now := s.env.timeOfDay told.2.now
    let after := s.sync id gameweek w
    Reported id gameweek now w.database told.1 after.1 ∧
    (∀ e, after.1 = .error e → after.2.database = w.database ∧ after.2.cache = w.cache) ∧
    (∀ e, after.1 = .ok e →
      s.Synced ttl id told.2.now w after.2 e ∧
      ∃ p status headers body, told.1 = .ok p ∧ p.id = id ∧ e = p.toEntry gameweek now ∧
        e.gameweek = (if gameweek.isSome then gameweek else p.gameweek) ∧
        200 ≤ status ∧ status < 300 ∧ s.HearsLast id w.link (.answer status headers (some body)) ∧
        (Json.Tree.read? body).bind EntryPayload.decode = some p) ∧
    (after.1 = .error (.notFound id) ↔ s.client.policy.retries (.client 404) = false ∧
      ∃ headers body, s.HearsLast id w.link (.answer 404 headers body)) := by
  intro told now after
  obtain ⟨reported, left⟩ := s.sync_cases id gameweek w
  refine ⟨reported, fun e failed => ?_, fun e gave => ?_, ?_⟩
  · rw [failed] at left
    rw [left]
    exact ⟨rfl, rfl⟩
  · rw [gave] at reported left
    generalize answer : (s.told id w.link).1 = result at reported
    cases reported with
    | @stored p own writes =>
      obtain ⟨status, headers, body, low, high, heard, read⟩ := told_ok answer
      refine ⟨.of_stored stores own (s.env.onClock _) left.1 left.2,
        p, status, headers, body, rfl, own, rfl, ?_, low, high, heard, read⟩
      cases gameweek <;> rfl
  · rw [← told_missing_iff]
    constructor
    · intro missing
      rw [missing] at reported
      generalize answer : (s.told id w.link).1 = result at reported ⊢
      cases reported with
      | missing => rfl
    · intro missing
      rw [missing] at reported
      generalize after.1 = result at reported ⊢
      cases reported with
      | missing => rfl
      | failed other => exact absurd rfl other

/-- Entry 7 is renamed, and entry 8 stays as it is in the store and in the cache. -/
theorem sync_all_or_nothing_renamed :
    let env : Surroundings := {
      transport := fun _ _ => ⟨some (3, .answer 200 []
        (some "\x7b\"id\":7,\"name\":\"Blues\",\"current_event\":9\x7d"))⟩
      timeOfDay := fun _ => .epoch }
    let s : EntryService := {
      client := {
        baseUrl := "https://host"
        policy := .ofConfig {}
        mode := .failFast
        timeouts := {}
        permits := 1 }
      env
      store := storeOf env (some 1000)
      scope := "league" }
    let old (id : EntryId) : Entry :=
      ⟨id, "Reds", "", none, none, none, none, none, none, none, .epoch⟩
    let new : Entry := { old 7 with name := "Blues", gameweek := some 3 }
    let w : World (Flaky Memory) := {
      link := .start {} 0
      database := { tables := Tables.upsertEntries {} [old 7, old 8] }
      cache := { backend := Memory.put {} 0 "league:entry:8" "kept" none } }
    let after := s.sync 7 (some 3) w
    s.store = storeOf s.env (some 1000) ∧ after.1 = .ok new ∧
      after.2.database.findEntry 7 = .ok (some new) ∧
      after.2.database.tables.entries.get? 8 = some (.ofEntry (old 8)) ∧
      after.2.cache.backend.items.get? "league:entry:8" = some ⟨"kept", none⟩ ∧
      ∃ text, s.store.read text = some new ∧
        after.2.cache.backend.items.get? "league:entry:7" = some ⟨text, some 1003⟩ := by
  intro env s old new w after
  have gave : after.1 = .ok new := by decide +kernel
  have ends : (s.told 7 w.link).2.now = 3 := by decide +kernel
  have key : (s.key 7).text = "league:entry:7" := by decide +kernel
  have other : "league:entry:8" ≠ (s.key 7).text := by decide +kernel
  have eight : w.database.tables.entries.get? 8 = some (.ofEntry (old 8)) := by decide +kernel
  have synced : s.Synced (some 1000) 7 (s.told 7 w.link).2.now w after.2 new :=
    ((sync_all_or_nothing s rfl 7 (some 3) w).2.2.1 new gave).1
  clear_value after
  have reaches : w.cache.backend.reaches (s.told 7 w.link).2.now (some 1000) = true := by
    rw [ends]
    decide +kernel
  obtain ⟨text, read, item, -⟩ := synced.cached rfl reaches
  rw [ends, key] at item
  exact ⟨rfl, gave, synced.found rfl Timestamp.hasPlainYear_epoch,
    (synced.otherRows 8 (by decide)).trans eight, synced.otherKeys _ other, text, read, item⟩

end EntryService
end LeagueSync
