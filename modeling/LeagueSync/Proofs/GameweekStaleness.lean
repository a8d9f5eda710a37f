import LeagueSync.Proofs.GameweekAgreement
import LeagueSync.Proofs.ReadThrough

/-!
# LeagueSync.Proofs.GameweekStaleness

How long an old gameweek is given as the current one. From some moment on the remote interface
reports one gameweek as current. What was cached before is given until it expires. What is given
afterwards depends on the durable store at that moment, because it is asked before the remote
interface: if it had no current gameweek, the reported one is given from then on; if it had one,
that one is given for good, since no look-up compares it with what is reported.

* `Tables.id_of_current?_upsert`: what the durable store has after the report was stored.
* `GameweekLookup.Settling`: what a run of look-ups keeps, by `Settling.current` and `Settling.run`.
* `GameweekLookup.current_once_expired`: the gameweek that is given once the cached one expired.
* `GameweekLookup.old_row_is_given_for_good`: a run in which it is not the reported one.
-/

namespace LeagueSync

/-! ## Reports -/

/-- A list that marks this gameweek as current and no other. -/
structure SeasonPayload.Reports (p : SeasonPayload) (b : GameweekId) : Prop where
  marks : ∃ g ∈ p.gameweeks, g.isCurrent = true
  only : ∀ g ∈ p.gameweeks, g.isCurrent = true → g.id = b

theorem SeasonPayload.Reports.current? {p : SeasonPayload} {b : GameweekId} (h : p.Reports b) :
    ∃ g, p.current? = some g ∧ g.id = b := by
  obtain ⟨g, member, marked⟩ := h.marks
  obtain ⟨g', first⟩ := Option.isSome_iff_exists.1 (List.find?_isSome.2 ⟨g, member, marked⟩)
  exact ⟨g', first, h.only g' (List.mem_of_find?_eq_some first) (List.find?_some first)⟩

theorem GameweekRow.onClock_of_toGameweek {id : Int64} {r : GameweekRow} {g : Gameweek}
    (h : r.toGameweek id = .ok g) : g.OnClock := by
  rw [toGameweek] at h
  split at h
  · cases h
    intro t read
    obtain ⟨text, -, read⟩ := Option.bind_eq_some_iff.1 read
    exact Timestamp.onClock_of_readStored? read
  · cases h

theorem Database.fails_upsertGameweeks (d : Database) (season : String) (gs : List Gameweek) :
    (d.upsertGameweeks season gs).2.fails = d.fails := by
  rw [upsertGameweeks, perform]
  split <;> rfl

namespace Tables

variable {t : Tables} {season : String}

/-- The current gameweek of a season. One that cannot be read counts as none. -/
def current? (t : Tables) (season : String) : Option Gameweek :=
  match t.findCurrent season with
  | .ok g? => g?
  | .error _ => none

theorem marked_of_unlisted {gs : List Gameweek} {id : Int64}
    (unlisted : ∀ g ∈ gs, g.id.toInt64 ≠ id) (before : Marked t season [] id) :
    Marked t season gs id := by
  have none : (gs.reverse.find? fun g => g.id.toInt64 == id) = none := by
    rw [List.find?_eq_none]
    intro g member same
    exact unlisted g (List.mem_reverse.1 member) (beq_iff_eq.1 same)
  rw [Marked, none]
  exact before

theorem current?_eq_some {g : Gameweek} (given : t.current? season = some g) :
    Marked t season [] g.id.toInt64 ∧
      (∀ id, Marked t season [] id → id.toInt ≤ g.id.toInt64.toInt) ∧ g.OnClock := by
  rw [current?] at given
  rcases t.findCurrent_cases season with ⟨-, none⟩ | ⟨id, row, marked, largest, found⟩
  · rw [none] at given
    cases given
  · rw [found] at given
    cases read : row.toGameweek id with
    | error fault => simp [read, Except.map] at given
    | ok g' =>
      simp only [read, Except.map, Option.some.injEq] at given
      rw [← given, GameweekRow.id_of_toGameweek read]
      exact ⟨marked, largest, GameweekRow.onClock_of_toGameweek read⟩

/-- No gameweek is given if none is marked, or if the largest that is has no number of a
gameweek. -/
theorem current?_eq_none (nothing : t.current? season = none) :
    (∀ id, ¬ Marked t season [] id) ∨ ∃ id, Marked t season [] id ∧
      (∀ id', Marked t season [] id' → id'.toInt ≤ id.toInt) ∧
        ∀ n : GameweekId, n.toInt64 ≠ id := by
  rw [current?] at nothing
  rcases t.findCurrent_cases season with ⟨unmarked, -⟩ | ⟨id, row, marked, largest, found⟩
  · exact .inl unmarked
  · refine .inr ⟨id, marked, largest, fun n same => ?_⟩
    obtain ⟨g, read, -⟩ := row.toGameweek_toInt64 n
    rw [found, ← same, read] at nothing
    cases nothing

/-- If a table had no gameweek to give before a report was stored, it has at most the reported one
afterwards. -/
theorem id_of_current?_upsert {p : SeasonPayload} {b : GameweekId} (reports : p.Reports b)
    (nothing : t.current? season = none) {g : Gameweek}
    (given : (t.upsertGameweeks season p.gameweeks).current? season = some g) : g.id = b := by
  obtain ⟨marked, largest, -⟩ := current?_eq_some given
  rcases ((marked_upsertGameweeks ..).1 marked).cases with
    ⟨g', listed, same, current⟩ | ⟨unlisted, before⟩
  · have back := congrArg Int64.toInt32 same
    rw [Int32.toInt32_toInt64, Int32.toInt32_toInt64] at back
    rw [← back, reports.only g' listed current]
  · -- an old mark is left, so there was a larger one without a number, which is left as well
    rcases current?_eq_none nothing with unmarked | ⟨id, marked', highest, nameless⟩
    · exact absurd before (unmarked _)
    · have left : Marked t season p.gameweeks id :=
        marked_of_unlisted (fun g' _ => nameless g'.id) marked'
      have above := largest id ((marked_upsertGameweeks ..).2 left)
      have below := highest _ before
      exact absurd (Int64.toInt_inj.1 (Int.le_antisymm below above)) (nameless g.id)

end Tables

/-! ## The sources -/

namespace GameweekLookup

theorem stored?_of_sound {d : Database} (reads : d.fails .findCurrent = none) (season : String) :
    stored? season d = d.tables.current? season := by
  rw [stored?, Database.findCurrent, Database.ask, reads, Tables.current?]
  cases d.tables.findCurrent season <;> rfl

theorem stored?_of_fails {d : Database} {e : DatabaseError} (fails : d.fails .findCurrent = some e)
    (season : String) : stored? season d = none := by
  rw [stored?, Database.findCurrent, Database.ask, fails]

theorem onClock_of_stored? {season : String} {d : Database} {g : Gameweek}
    (row : stored? season d = some g) : g.OnClock := by
  cases reads : d.fails .findCurrent with
  | some e =>
    rw [stored?_of_fails reads] at row
    cases row
  | none =>
    rw [stored?_of_sound reads] at row
    exact (Tables.current?_eq_some row).2.2

theorem id_of_stored?_upsert {season : String} {d : Database} {p : SeasonPayload} {b : GameweekId}
    (reports : p.Reports b) (nothing : stored? season d = none) {g : Gameweek}
    (row : stored? season (d.upsertGameweeks season p.gameweeks).2 = some g) : g.id = b := by
  cases reads : d.fails .findCurrent with
  | some e =>
    rw [stored?_of_fails (d.fails_upsertGameweeks season p.gameweeks ▸ reads)] at row
    cases row
  | none =>
    cases writes : d.fails .upsertGameweeks with
    | some e =>
      rw [Database.upsertGameweeks, Database.perform_of_fails d _ e _ writes, nothing] at row
      cases row
    | none =>
      have tables : (d.upsertGameweeks season p.gameweeks).2.tables =
          d.tables.upsertGameweeks season p.gameweeks := by
        rw [Database.upsertGameweeks, Database.perform, writes]
      rw [stored?_of_sound (d.fails_upsertGameweeks season p.gameweeks ▸ reads), tables] at row
      rw [stored?_of_sound reads] at nothing
      exact Tables.id_of_current?_upsert reports nothing row

/-! ## Runs -/

/-- What happens to a service: the current gameweek is looked up, or time passes. -/
inductive LookupStep where
  | current
  | wait (ms : Nat)
  deriving DecidableEq, Repr

variable {σ : Type} [Backend σ] (s : GameweekLookup)

def step (w : World σ) : LookupStep → World σ
  | .current => (s.current w).2
  | .wait ms => { w with link := w.link.advance ms }

def run (w : World σ) (steps : List LookupStep) : World σ :=
  steps.foldl s.step w

/-- All look-ups of a run fall in one season, and whenever one of them asks the remote interface, it
is told that this gameweek is current. -/
def Hears (season : String) (b : GameweekId) : World σ → List LookupStep → Prop
  | _, [] => True
  | w, c :: cs =>
    (c = .current → s.season w.link.now = season ∧
      ((s.cached? season w).or (stored? season w.database) = none →
        ∃ p, (s.announced (s.missed w.link)).1 = .ok p ∧ p.Reports b)) ∧
      Hears season b (s.step w c) cs

/-- The gameweek that is given after what was cached has expired: what the durable store had, or
else the one that is reported. -/
def Lasting (row? : Option Gameweek) (b : GameweekId) (g : Gameweek) : Prop :=
  match row? with
  | some a => g = a
  | none => g.id = b

/-- What look-ups leave after a start: in the cache what was there before or what is given for good,
and in the durable store nothing or what is given for good. -/
structure Settling (keeping : Keeping σ) (season : String) (b : GameweekId) (start w : World σ) :
    Prop where
  cached : ∀ later, w.link.now ≤ later → ∀ v g,
    keeping.live? later (s.key season).text w.cache = some v → s.store.read v.data = some g →
      Lasting (stored? season start.database) b g ∨
        keeping.live? later (s.key season).text start.cache = some v
  stored : match stored? season w.database with
    | some g => Lasting (stored? season start.database) b g
    | none => stored? season start.database = none

namespace Settling

variable {s} {keeping : Keeping σ} {season : String} {b : GameweekId} {start w : World σ}

theorem refl (w : World σ) : s.Settling keeping season b w w := by
  refine ⟨fun _ _ _ _ live _ => .inr live, ?_⟩
  cases stored? season w.database with
  | none => rfl
  | some a => rfl

/-- What is read after a write is what was written, or was there before if the write broke down. -/
theorem of_written (reads : ∀ g, Json.Reads s.store.decode (s.store.encode g) g.shown) {cache : σ}
    {now later : Nat} (le : now ≤ later) {g g' : Gameweek} {v : Stored}
    (live : keeping.live? later (s.key season).text (s.written season now g cache) = some v)
    (read : s.store.read v.data = some g') :
    g' = g.shown ∨ keeping.live? later (s.key season).text cache = some v := by
  rw [written, keeping.live?_set _ _ _ _ _ le] at live
  split at live
  · rw [← Stored.eq_of_live? live, s.store.read_write (reads g)] at read
    exact .inl (Option.some.inj read).symm
  · exact .inr live

/-- A look-up gives what is given for good, or what was cached at the start and is not expired. -/
theorem current (reads : ∀ g, Json.Reads s.store.decode (s.store.encode g) g.shown)
    (h : s.Settling keeping season b start w) (inSeason : s.season w.link.now = season)
    (hears : (s.cached? season w).or (stored? season w.database) = none →
      ∃ p, (s.announced (s.missed w.link)).1 = .ok p ∧ p.Reports b) :
    (∃ g, (s.current w).1 = .ok (some g) ∧ (Lasting (stored? season start.database) b g ∨
      (keeping.live? w.link.now (s.key season).text start.cache).isSome)) ∧
      s.Settling keeping season b start (s.current w).2 := by
  subst inSeason
  have unwritten {later : Nat} (le : w.link.now ≤ later) {v : Stored} {g : Gameweek}
      (live : keeping.live? later (s.key (s.season w.link.now)).text
        (s.asked (s.season w.link.now) w) = some v) (read : s.store.read v.data = some g) :
      Lasting (stored? (s.season w.link.now) start.database) b g ∨
        keeping.live? later (s.key (s.season w.link.now)).text start.cache = some v :=
    h.cached later le v g ((keeping.live?_get _ _ _ le).symm.trans live) read
  cases hit : s.cached? (s.season w.link.now) w with
  | some g =>
    obtain ⟨stats, ran⟩ := s.current_of_cached? w hit
    rw [ran]
    rw [cached?, s.store.found_of_keeping keeping] at hit
    obtain ⟨v, live, read⟩ := Option.bind_eq_some_iff.1 hit
    refine ⟨⟨g, rfl, ?_⟩, fun later le v g => unwritten le, h.stored⟩
    refine (h.cached _ (Nat.le_refl _) v g live read).imp id fun old => ?_
    rw [old]
    rfl
  | none =>
    rw [hit, Option.none_or] at hears
    have rows := h.stored
    cases row : stored? (s.season w.link.now) w.database with
    | some g =>
      obtain ⟨stats, ran⟩ := s.current_of_stored? w hit row
      rw [row] at rows
      rw [ran]
      refine ⟨⟨g, rfl, .inl rows⟩, fun later le v g' live read => ?_, ?_⟩
      · rcases of_written reads le live read with written | before
        · rw [written, (onClock_of_stored? row).shown]
          exact .inl rows
        · exact unwritten le before read
      · simp only [row]
        exact rows
    | none =>
      rw [row] at rows
      obtain ⟨p, told, reports⟩ := hears row
      obtain ⟨g, current, own⟩ := reports.current?
      obtain ⟨stats, ran⟩ := s.current_of_announced w hit row (Prod.ext told rfl)
      rw [ran, current]
      have lasting {g' : Gameweek} (id : g'.id = b) :
          Lasting (stored? (s.season w.link.now) start.database) b g' := by
        rw [rows]
        exact id
      have now := s.now_le_announced (s.missed w.link)
      refine ⟨⟨g, rfl, .inl (lasting own)⟩, fun later le v g' live read => ?_, ?_⟩
      · rcases of_written reads le live read with written | before
        · rw [written]
          exact .inl (lasting own)
        · exact unwritten (Nat.le_trans now le) before read
      · dsimp only
        split
        · next g' after => exact lasting (id_of_stored?_upsert reports row after)
        · exact rows

theorem advance (h : s.Settling keeping season b start w) (ms : Nat) :
    s.Settling keeping season b start { w with link := w.link.advance ms } :=
  ⟨fun later le => h.cached later (Nat.le_trans (Nat.le_add_right ..) le), h.stored⟩

theorem run (reads : ∀ g, Json.Reads s.store.decode (s.store.encode g) g.shown)
    (h : s.Settling keeping season b start w) {steps after : List LookupStep}
    (hears : s.Hears season b w (steps ++ after)) :
    s.Settling keeping season b start (s.run w steps) ∧
      s.Hears season b (s.run w steps) after := by
  induction steps generalizing w with
  | nil => exact ⟨h, hears⟩
  | cons c steps ih =>
    obtain ⟨told, rest⟩ := hears
    refine ih ?_ rest
    cases c with
    | current =>
      obtain ⟨inSeason, hears⟩ := told rfl
      exact (h.current reads inSeason hears).2
    | wait ms => exact h.advance ms

end Settling

variable {s}

/-- From a moment on the remote interface reports one gameweek whenever a look-up asks it. What was
cached at that moment has expired at the end of a run of look-ups. Then a look-up gives what the
durable store gave at that moment, whatever is reported, and the reported gameweek if it gave
none. So it gives the reported one exactly if the durable store gave no other. -/
theorem current_once_expired {ttl : Option Nat} (own : s.store = storeOf s.env ttl)
    (keeping : Keeping σ) (season : String) (b : GameweekId) (w : World σ)
    (steps : List LookupStep) (hears : s.Hears season b w (steps ++ [.current]))
    (expired : keeping.live? (s.run w steps).link.now (s.key season).text w.cache = none) :
    ∃ g, (s.current (s.run w steps)).1 = .ok (some g) ∧
      (∀ a, stored? season w.database = some a → g = a) ∧
      (g.id = b ↔ ∀ a, stored? season w.database = some a → a.id = b) := by
  have reads : ∀ g, Json.Reads s.store.decode (s.store.encode g) g.shown := by
    rw [own]
    exact Gameweek.reads_toJson
  have start : s.Settling keeping season b w w := .refl w
  obtain ⟨settling, ends, -⟩ := start.run reads hears
  obtain ⟨inSeason, told⟩ := ends rfl
  obtain ⟨⟨g, given, lasting⟩, -⟩ := settling.current reads inSeason told
  rw [expired, Option.isSome_none, or_iff_left Bool.false_ne_true] at lasting
  refine ⟨g, given, ?_⟩
  cases row : stored? season w.database with
  | none =>
    rw [row] at lasting
    have unstored (P : Gameweek → Prop) : ∀ a, none = some a → P a := by
      intro a same
      cases same
    exact ⟨unstored _, iff_of_true lasting (unstored _)⟩
  | some a =>
    rw [row] at lasting
    have lasting : g = a := lasting
    subst lasting
    exact ⟨fun a same => Option.some.inj same, fun id a same => Option.some.inj same ▸ id,
      fun all => all _ rfl⟩

/-- A look-up in one season with a cache for a second. Its remote interface answers one request
after another with these lists. -/
def announcing (lists : Nat → String) : GameweekLookup :=
  let env : Surroundings := {
    transport := fun sent _ =>
      ⟨some (3, .answer 200 [] (some ("\x7b\"events\":[" ++ lists sent ++ "]\x7d")))⟩
    timeOfDay := fun _ => .epoch
    onClock := Timestamp.onClock_standing }
  { client := {
      baseUrl := "https://host"
      policy := .ofConfig {}
      mode := .failFast
      timeouts := {}
      permits := 1 }
    env
    store := storeOf env (some 1000)
    scope := "league"
    pinned := some "2425" }

/-- The durable store has nothing, and an older gameweek is cached. It is given for a second, and
then the reported one. -/
theorem current_once_expired_nothing_stored :
    let s := announcing fun _ => "\x7b\"id\":5,\"name\":\"e\",\"is_current\":true\x7d"
    let old : Gameweek := ⟨4, "d", none, true, false, false⟩
    let w : World Memory := s.cache "2425" old { link := .start {} 0, cache := {} }
    let steps : List LookupStep := [.current, .wait 1000]
    s.Hears "2425" 5 w (steps ++ [.current]) ∧
      (s.current w).1 = .ok (some old) ∧
      ∃ g, (s.current (s.run w steps)).1 = .ok (some g) ∧ g.id = 5 := by
  intro s old w steps
  have reports : SeasonPayload.Reports ⟨[⟨5, "e", none, true, false, false⟩]⟩ 5 :=
    ⟨⟨_, List.mem_singleton_self _, rfl⟩, fun g member _ => List.mem_singleton.1 member ▸ rfl⟩
  have hears : s.Hears "2425" 5 w (steps ++ [.current]) := by
    refine ⟨fun _ => ⟨rfl, fun nothing => ?_⟩, nofun, fun _ => ⟨rfl, fun _ => ?_⟩, trivial⟩
    · exact absurd nothing (by decide +kernel)
    · exact ⟨_, by decide +kernel, reports⟩
  have expired :
      Memory.keeping.live? (s.run w steps).link.now (s.key "2425").text w.cache = none := by
    decide +kernel
  obtain ⟨g, given, -, same⟩ :=
    current_once_expired rfl Memory.keeping "2425" 5 w steps hears expired
  have nothing : stored? "2425" w.database = none := by decide +kernel
  refine ⟨hears, by decide +kernel, g, given, same.2 fun a row => ?_⟩
  rw [nothing] at row
  cases row

/-- The first look-up is told of an older gameweek and stores it. From then on another one is
reported, and a second later nothing of the first look-up is cached any more; but the stored row is
found, so the older gameweek is given again. -/
theorem old_row_is_given_for_good :
    let five := "\x7b\"id\":5,\"name\":\"e\",\"is_current\":true\x7d"
    let s := announcing fun sent =>
      if sent = 0 then "\x7b\"id\":4,\"name\":\"d\",\"is_current\":true\x7d" else five
    let old : Gameweek := ⟨4, "d", none, true, false, false⟩
    let start : World Memory := { link := .start {} 0, cache := {} }
    let first := s.current start
    let later := s.run first.2 [.wait 1000]
    first.1 = .ok (some old) ∧
      (s.announced (s.missed later.link)).1 = .ok ⟨[⟨5, "e", none, true, false, false⟩]⟩ ∧
      Memory.live? first.2.cache later.link.now (s.key "2425").text = none ∧
      (s.current later).1 = .ok (some old) := by
  decide +kernel

end GameweekLookup
end LeagueSync
