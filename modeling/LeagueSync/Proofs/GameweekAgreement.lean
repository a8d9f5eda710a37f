import LeagueSync.Proofs.EntryTable
import LeagueSync.Proofs.GameweekSources

/-!
# LeagueSync.Proofs.GameweekAgreement

The remote interface marks gameweeks as current, and so does the durable store once it has stored
them. The first gives the first mark of its list, the second the mark with the largest id, and old
rows keep their marks as long as no list mentions them. So both agree on a list just stored exactly
if what the first gives is also the largest mark that is left.

* `Tables.Marked`: which gameweeks are marked after a list was stored.
* `Tables.findCurrent_iff`, `Tables.findCurrent_eq_none_iff`: the durable store gives the largest.
* `GameweekLookup.fetch_agrees`: when both agree.
* `GameweekLookup.two_marks_disagree`: a list on which they do not.
-/

namespace LeagueSync

theorem head?_sortedBy {α : Type} {key : α → Int} {xs : List α} {a : α}
    (h : (sortedBy key xs).head? = some a) : a ∈ xs ∧ ∀ b ∈ xs, key a ≤ key b := by
  have member : a ∈ xs := mem_sortedBy.1 (List.mem_of_head? h)
  refine ⟨member, fun b other => ?_⟩
  have sorted := pairwise_sortedBy key xs
  obtain ⟨rest, split⟩ := List.head?_eq_some_iff.1 h
  rw [split, List.pairwise_cons] at sorted
  have there : b ∈ sortedBy key xs := mem_sortedBy.2 other
  rw [split, List.mem_cons] at there
  rcases there with rfl | later
  · exact Int.le_refl _
  · exact sorted.1 b later

theorem flagWord_eq_one_iff (b : Bool) : flagWord b = 1 ↔ b = true := by
  cases b <;> decide

theorem GameweekRow.id_of_toGameweek {id : Int64} {r : GameweekRow} {g : Gameweek}
    (h : r.toGameweek id = .ok g) : g.id.toInt64 = id := by
  rw [toGameweek] at h
  split at h
  · next small =>
    cases h
    exact small.symm
  · cases h

theorem GameweekRow.toGameweek_toInt64 (id : GameweekId) (r : GameweekRow) :
    ∃ g, r.toGameweek id.toInt64 = .ok g ∧ g.id = id := by
  have back : id.toInt64.toInt32 = id := Int32.toInt32_toInt64 id
  rw [toGameweek, if_pos (by rw [back])]
  exact ⟨_, rfl, back⟩

namespace Tables

/-- Whether a gameweek is marked as current once a list has been stored over a table: what the list
says of it last, or if it does not mention the gameweek, what the table says. -/
def Marked (t : Tables) (season : String) (gs : List Gameweek) (id : Int64) : Prop :=
  match gs.reverse.find? fun g => g.id.toInt64 == id with
  | some g => g.isCurrent = true
  | none => ∃ row, t.gameweeks.get? (season, id) = some row ∧ row.isCurrent = 1

/-- A mark that is left is one of the list, or one of a gameweek that the list does not mention. -/
theorem Marked.cases {t : Tables} {season : String} {gs : List Gameweek} {id : Int64}
    (h : Marked t season gs id) : (∃ g ∈ gs, g.id.toInt64 = id ∧ g.isCurrent = true) ∨
      (∀ g ∈ gs, g.id.toInt64 ≠ id) ∧
        ∃ row, t.gameweeks.get? (season, id) = some row ∧ row.isCurrent = 1 := by
  rw [Marked] at h
  split at h
  · next g last =>
    refine .inl ⟨g, List.mem_reverse.1 (List.mem_of_find?_eq_some last), ?_, h⟩
    simpa using List.find?_some last
  · next unlisted =>
    refine .inr ⟨fun g member same => ?_, h⟩
    simpa [same] using List.find?_eq_none.1 unlisted g (List.mem_reverse.2 member)

/-- Only the table of gameweeks changes. -/
theorem upsertGameweeks_eq (t : Tables) (season : String) (gs : List Gameweek) :
    t.upsertGameweeks season gs =
      { t with
        gameweeks :=
          gs.foldl (fun t g => t.put (season, g.id.toInt64) (.ofGameweek g)) t.gameweeks } := by
  induction gs generalizing t with
  | nil => rfl
  | cons g gs ih => exact ih (upsertGameweek season t g)

theorem get?_upsertGameweeks (t : Tables) (season : String) (gs : List Gameweek) (id : Int64) :
    (t.upsertGameweeks season gs).gameweeks.get? (season, id) =
      match gs.reverse.find? fun g => g.id.toInt64 == id with
      | some g => some (.ofGameweek g)
      | none => t.gameweeks.get? (season, id) := by
  rw [upsertGameweeks_eq, Table.get?_foldl_put]
  have number : (fun g : Gameweek => decide ((season, g.id.toInt64) = (season, id))) =
      fun g => g.id.toInt64 == id := by
    funext g
    rw [Bool.eq_iff_iff, decide_eq_true_iff, beq_iff_eq, Prod.mk.injEq, and_iff_right rfl]
  rw [number]
  cases gs.reverse.find? fun g => g.id.toInt64 == id <;> rfl

theorem marked_upsertGameweeks (t : Tables) (season : String) (gs : List Gameweek) (id : Int64) :
    Marked (t.upsertGameweeks season gs) season [] id ↔ Marked t season gs id := by
  simp only [Marked, List.reverse_nil, List.find?_nil, get?_upsertGameweeks]
  cases gs.reverse.find? fun g => g.id.toInt64 == id with
  | none => exact .rfl
  | some g => simp [GameweekRow.ofGameweek, flagWord_eq_one_iff]

theorem mem_marked (t : Tables) (season : String) (r : (String × Int64) × GameweekRow) :
    r ∈ t.gameweeks.rows.filter (fun row => row.1.1 == season && row.2.isCurrent == 1) ↔
      r.1.1 = season ∧ t.gameweeks.get? r.1 = some r.2 ∧ r.2.isCurrent = 1 := by
  rw [List.mem_filter, Table.get?_eq_some_iff, Bool.and_eq_true, beq_iff_eq, beq_iff_eq]
  exact and_left_comm

theorem marked_nil (t : Tables) (season : String) (id : Int64) :
    Marked t season [] id ↔
      ∃ row, t.gameweeks.get? (season, id) = some row ∧ row.isCurrent = 1 := .rfl

/-- The durable store gives the largest of the marked gameweeks, if there is one. -/
theorem findCurrent_cases (t : Tables) (season : String) :
    ((∀ id, ¬ Marked t season [] id) ∧ t.findCurrent season = .ok none) ∨
      ∃ id row, Marked t season [] id ∧ (∀ id', Marked t season [] id' → id'.toInt ≤ id.toInt) ∧
        t.findCurrent season = (GameweekRow.toGameweek id row).map some := by
  simp only [findCurrent]
  cases first : (sortedBy (fun row => -row.1.2.toInt) (t.gameweeks.rows.filter fun row =>
      row.1.1 == season && row.2.isCurrent == 1)).head? with
  | none =>
    refine .inl ⟨fun id marked => ?_, rfl⟩
    obtain ⟨row, there, flag⟩ := (marked_nil t season id).1 marked
    have member := (mem_marked t season ((season, id), row)).2 ⟨rfl, there, flag⟩
    rw [← @mem_sortedBy _ (fun row => -row.1.2.toInt), List.head?_eq_none_iff.1 first] at member
    cases member
  | some r =>
    obtain ⟨member, least⟩ := head?_sortedBy first
    obtain ⟨rfl, there, flag⟩ := (mem_marked t season r).1 member
    refine .inr ⟨r.1.2, r.2, (marked_nil ..).2 ⟨r.2, there, flag⟩, fun id marked => ?_, rfl⟩
    obtain ⟨row, other, flag'⟩ := (marked_nil ..).1 marked
    have below := least _ ((mem_marked t r.1.1 ((r.1.1, id), row)).2 ⟨rfl, other, flag'⟩)
    simpa using below

/-- The row that the durable store gives is that of the largest marked gameweek. -/
theorem findCurrent_of_largest {t : Tables} {season : String} {id : Int64} {row : GameweekRow}
    (there : t.gameweeks.get? (season, id) = some row) (flag : row.isCurrent = 1)
    (largest : ∀ id', Marked t season [] id' → id' ≤ id) :
    t.findCurrent season = (row.toGameweek id).map some := by
  have member := (mem_marked t season ((season, id), row)).2 ⟨rfl, there, flag⟩
  simp only [findCurrent]
  cases first : (sortedBy (fun row => -row.1.2.toInt) (t.gameweeks.rows.filter fun row =>
      row.1.1 == season && row.2.isCurrent == 1)).head? with
  | none =>
    rw [← @mem_sortedBy _ (fun row => -row.1.2.toInt), List.head?_eq_none_iff.1 first] at member
    cases member
  | some r =>
    obtain ⟨among, least⟩ := head?_sortedBy first
    obtain ⟨rfl, own, flag'⟩ := (mem_marked t season r).1 among
    have below : r.1.2 ≤ id := largest _ ((marked_nil ..).2 ⟨r.2, own, flag'⟩)
    have above : -r.1.2.toInt ≤ -id.toInt := least _ member
    have same : r.1.2 = id := by
      rw [Int64.le_iff_toInt_le] at below
      exact Int64.toInt_inj.1 (by omega)
    have key : r.1 = (r.1.1, id) := Prod.ext rfl same
    rw [key, there] at own
    cases own
    simp only [same]

theorem findCurrent_eq_none_iff (t : Tables) (season : String) :
    t.findCurrent season = .ok none ↔ ∀ id, ¬ Marked t season [] id := by
  rcases t.findCurrent_cases season with ⟨unmarked, found⟩ | ⟨id, row, marked, -, found⟩
  · exact ⟨fun _ => unmarked, fun _ => found⟩
  · refine ⟨fun nothing => ?_, fun unmarked => absurd marked (unmarked id)⟩
    rw [found] at nothing
    cases read : row.toGameweek id <;> simp [read, Except.map] at nothing

/-- The gameweek of this number is what the durable store gives, if and only if it is marked and
none with a larger number is. -/
theorem findCurrent_iff (t : Tables) (season : String) (id : GameweekId) :
    (∃ g, t.findCurrent season = .ok (some g) ∧ g.id = id) ↔
      Marked t season [] id.toInt64 ∧ ∀ id', Marked t season [] id' → id' ≤ id.toInt64 := by
  constructor
  · rintro ⟨g, found, rfl⟩
    rcases t.findCurrent_cases season with ⟨-, none⟩ | ⟨id', row, marked, largest, given⟩
    · cases found.symm.trans none
    · rw [found] at given
      have own : g.id.toInt64 = id' := by
        cases read : row.toGameweek id' with
        | error fault => simp [read, Except.map] at given
        | ok g' =>
          simp only [read, Except.map, Except.ok.injEq, Option.some.injEq] at given
          exact given ▸ GameweekRow.id_of_toGameweek read
      rw [own]
      exact ⟨marked, fun id'' other => Int64.le_iff_toInt_le.2 (largest id'' other)⟩
  · rintro ⟨marked, largest⟩
    rcases t.findCurrent_cases season with ⟨unmarked, -⟩ | ⟨id', row, marked', largest', given⟩
    · exact absurd marked (unmarked _)
    · have same : id' = id.toInt64 := Int64.toInt_inj.1
        (Int.le_antisymm (Int64.le_iff_toInt_le.1 (largest id' marked')) (largest' _ marked))
      obtain ⟨g, read, own⟩ := row.toGameweek_toInt64 id
      rw [same, read] at given
      exact ⟨g, given, own⟩

end Tables

/-! ## Both paths -/

namespace GameweekLookup

variable {σ : Type} [Backend σ]

theorem findCurrent_of_sound {d : Database} (reads : d.fails .findCurrent = none) (season : String)
    (g? : Option Gameweek) :
    d.findCurrent season = .ok g? ↔ d.tables.findCurrent season = .ok g? := by
  rw [Database.findCurrent, Database.ask, reads]
  cases d.tables.findCurrent season <;> simp [LeagueSync.stored]

section

variable {s : GameweekLookup} (season : String) {w : World σ} {p : SeasonPayload}
  (told : (s.announced w.link).1 = .ok p) (writes : w.database.fails .upsertGameweeks = none)
include told

theorem fetch_fst : (s.fetch season w).1 = .ok p.current? := by
  obtain ⟨stats, fetched⟩ := s.fetch_of_ok season w (Prod.ext told rfl)
  rw [fetched]

include writes

theorem database_fetch : (s.fetch season w).2.database =
    { w.database with tables := w.database.tables.upsertGameweeks season p.gameweeks } := by
  obtain ⟨stats, fetched⟩ := s.fetch_of_ok season w (Prod.ext told rfl)
  rw [fetched]
  simp only [Database.upsertGameweeks, Database.perform, writes]

theorem findCurrent_fetch_eq (reads : w.database.fails .findCurrent = none) (g? : Option Gameweek) :
    (s.fetch season w).2.database.findCurrent season = .ok g? ↔
      (w.database.tables.upsertGameweeks season p.gameweeks).findCurrent season = .ok g? := by
  have database := database_fetch season told writes
  have sound : (s.fetch season w).2.database.fails .findCurrent = none := by rw [database, reads]
  rw [findCurrent_of_sound sound, database]

theorem findCurrent_fetch (reads : w.database.fails .findCurrent = none) (id : GameweekId) :
    (∃ g, (s.fetch season w).2.database.findCurrent season = .ok (some g) ∧ g.id = id) ↔
      w.database.tables.Marked season p.gameweeks id.toInt64 ∧
        ∀ id', w.database.tables.Marked season p.gameweeks id' → id' ≤ id.toInt64 := by
  simp only [findCurrent_fetch_eq season told writes reads, Tables.findCurrent_iff,
    Tables.marked_upsertGameweeks]

theorem findCurrent_fetch_eq_none (reads : w.database.fails .findCurrent = none) :
    (s.fetch season w).2.database.findCurrent season = .ok none ↔
      ∀ id, ¬ w.database.tables.Marked season p.gameweeks id := by
  simp only [findCurrent_fetch_eq season told writes reads, Tables.findCurrent_eq_none_iff,
    Tables.marked_upsertGameweeks]

end

/-- After a list was stored, the durable store gives the gameweek that the list gave if that is
marked and no larger one is; then it is also what a look-up gives when the cached copy is gone. If
the list gave none, the durable store gives none if no mark is left. -/
theorem fetch_agrees (s : GameweekLookup) (season : String) (w : World σ) (p : SeasonPayload)
    (told : (s.announced w.link).1 = .ok p) (writes : w.database.fails .upsertGameweeks = none)
    (reads : w.database.fails .findCurrent = none) :
    let after := s.fetch season w
    let marked := w.database.tables.Marked season p.gameweeks
    after.1 = .ok p.current? ∧
    match p.current? with
    | some g =>
      ((∃ g', after.2.database.findCurrent season = .ok (some g') ∧ g'.id = g.id) ↔
        marked g.id.toInt64 ∧ ∀ id, marked id → id ≤ g.id.toInt64) ∧
      ((marked g.id.toInt64 ∧ ∀ id, marked id → id ≤ g.id.toInt64) → ∀ w' : World σ,
        w'.database = after.2.database → s.season w'.link.now = season →
          s.cached? season w' = none → ∃ g', (s.current w').1 = .ok (some g') ∧ g'.id = g.id)
    | none => after.2.database.findCurrent season = .ok none ↔ ∀ id, ¬ marked id := by
  intro after marked
  refine ⟨fetch_fst season told, ?_⟩
  cases p.current? with
  | none => exact findCurrent_fetch_eq_none season told writes reads
  | some g =>
    have agrees := findCurrent_fetch season told writes reads g.id
    refine ⟨agrees, fun largest w' same inSeason gone => ?_⟩
    obtain ⟨g', row, own⟩ := agrees.2 largest
    refine ⟨g', ?_, own⟩
    subst inSeason
    rw [(s.current_answer w').1, gone, stored?, same, row]
    rfl

/-- A look-up whose remote interface always gives this list. -/
def listing (events : String) : GameweekLookup :=
  let env : Surroundings := {
    transport := fun _ _ =>
      ⟨some (3, .answer 200 [] (some ("\x7b\"events\":[" ++ events ++ "]\x7d")))⟩
    timeOfDay := fun _ => .epoch
    onClock := Timestamp.onClock_standing }
  { client := {
      baseUrl := "https://host"
      policy := .ofConfig {}
      mode := .failFast
      timeouts := {}
      permits := 1 }
    env
    store := storeOf env none
    scope := "league" }

/-- The list takes the mark from a gameweek that had it. -/
theorem fetch_agrees_moved_mark :
    let s := listing ("\x7b\"id\":3,\"name\":\"c\"\x7d," ++
      "\x7b\"id\":5,\"name\":\"e\",\"is_current\":true\x7d")
    let w : World Memory := {
      link := .start {} 0
      database := { tables := Tables.upsertGameweek "2425" {} ⟨3, "c", none, true, false, false⟩ }
      cache := {} }
    let after := s.fetch "2425" w
    (s.announced w.link).1 =
        .ok ⟨[⟨3, "c", none, false, false, false⟩, ⟨5, "e", none, true, false, false⟩]⟩ ∧
      after.1 = .ok (some ⟨5, "e", none, true, false, false⟩) ∧
      ∃ g, after.2.database.findCurrent "2425" = .ok (some g) ∧ g.id = 5 := by
  intro s w after
  have told : (s.announced w.link).1 =
      .ok ⟨[⟨3, "c", none, false, false, false⟩, ⟨5, "e", none, true, false, false⟩]⟩ := by
    decide +kernel
  obtain ⟨answer, agrees, -⟩ := s.fetch_agrees "2425" w _ told rfl rfl
  refine ⟨told, answer, agrees.2 ⟨rfl, fun id marked => ?_⟩⟩
  rcases marked.cases with ⟨g, listed, own, current⟩ | ⟨unlisted, row, there, -⟩
  · simp only [List.mem_cons, List.not_mem_nil, or_false] at listed
    rcases listed with rfl | rfl
    · cases current
    · exact own ▸ Int64.le_refl _
  · have three : ("2425", id) ∈ w.database.tables.gameweeks.keys := by
      rw [Table.mem_keys_iff, there]
      rfl
    exact absurd (Prod.mk.inj (List.mem_singleton.1 three)).2.symm
      (unlisted ⟨3, "c", none, false, false, false⟩ List.mem_cons_self)

/-- The remote interface marks two gameweeks. The first one is the answer, and the durable store
gives the second one. -/
theorem two_marks_disagree :
    let s := listing ("\x7b\"id\":5,\"name\":\"e\",\"is_current\":true\x7d," ++
      "\x7b\"id\":7,\"name\":\"g\",\"is_current\":true\x7d")
    let w : World Memory := { link := .start {} 0, cache := {} }
    let after := s.fetch "2425" w
    w.database.fails .upsertGameweeks = none ∧
      after.1 = .ok (some ⟨5, "e", none, true, false, false⟩) ∧
      ∃ g, after.2.database.findCurrent "2425" = .ok (some g) ∧ g.id = 7 := by
  intro s w after
  have told : (s.announced w.link).1 =
      .ok ⟨[⟨5, "e", none, true, false, false⟩, ⟨7, "g", none, true, false, false⟩]⟩ := by
    decide +kernel
  refine ⟨rfl, fetch_fst _ told, (findCurrent_fetch _ told rfl rfl 7).2 ⟨rfl, fun id marked => ?_⟩⟩
  rcases marked.cases with ⟨g, listed, own, -⟩ | ⟨-, row, there, -⟩
  · simp only [List.mem_cons, List.not_mem_nil, or_false] at listed
    rcases listed with rfl | rfl
    · exact own ▸ (by decide)
    · exact own ▸ Int64.le_refl _
  · cases there

end GameweekLookup
end LeagueSync
