import LeagueSync.Proofs.EntryCoherence
import LeagueSync.Proofs.LiveCache
import Mathlib.Data.List.Induction

/-!
# LeagueSync.Proofs.BulkReads

Looking several entries up at once against looking them up one after another, on a cache in memory
with any contents: live or expired values, values of an older row, texts that are no entries. What
the cache has is kept as a `View`, from keys to live values; a look-up of one entry is a step on
views (`EntryService.readThrough`), and its answer does not change with the steps before it.

If the clock does not reach the end of the lifetime, a look-up breaks down when it comes to cache a
row. It caches nothing then, so the steps are those of a store without rows to cache
(`EntryService.cacheable?`), and both ways break down for the same lists of ids.

* `Store.getEach_memory`, `Store.cacheMany_memory`: what looking several keys up in the cache finds
  and misses, and what storing several values leaves there.
* `EntryService.find_eq`, `EntryService.findEach_eq`: single look-ups as steps on views.
* `EntryService.Filled`: a view in which just the missing rows were cached. There is only one, and
  both ways of looking several entries up lead to it (`filled_foldl`, `filled_findMany`).
* `EntryService.Served`: the lists of ids for which neither way breaks down.
* `EntryService.findMany_agrees`: the same answers and the same cache, with one query at most.
-/

namespace LeagueSync

/-! ## Keys in the cache -/

/-- How a shelf is after keys were looked up: expired values may have gone. -/
structure Shelf.Unwritten (h h' : Shelf Memory) : Prop where
  now : h'.now = h.now
  live : ∀ k, h'.backend.live? h.now k = h.backend.live? h.now k
  horizon : h'.backend.horizon = h.backend.horizon
  breakdowns : h'.backend.breakdowns = h.backend.breakdowns

theorem Shelf.Unwritten.trans {h h' h'' : Shelf Memory} (first : h.Unwritten h')
    (second : h'.Unwritten h'') : h.Unwritten h'' where
  now := second.now.trans first.now
  live k := (first.now ▸ second.live k).trans (first.live k)
  horizon := second.horizon.trans first.horizon
  breakdowns := second.breakdowns.trans first.breakdowns

theorem Shelf.Unwritten.reaches {h h' : Shelf Memory} (unwritten : h.Unwritten h')
    (ttl : Option Nat) : h'.backend.reaches h'.now ttl = h.backend.reaches h.now ttl := by
  rw [unwritten.now]
  exact Memory.reaches_congr unwritten.horizon

namespace Store

variable {V : Type}

def kept? (s : Store V) (h : Shelf Memory) (key : CacheKey) : Option V :=
  (h.backend.live? h.now key.text).bind fun v => s.read v.data

theorem get_memory (s : Store V) (key : CacheKey) (h : Shelf Memory) :
    (s.get key h).1 = s.kept? h key ∧ h.Unwritten (s.get key h).2 := by
  obtain ⟨stats, got⟩ := s.get_eq key h
  rw [got]
  refine ⟨?_, rfl, fun k => h.backend.live?_get key.text k (Nat.le_refl _),
    h.backend.horizon_get h.now key.text, h.backend.breakdowns_get h.now key.text⟩
  rw [found_memory, Memory.lookup_eq_live?, kept?, Option.bind_map]
  rfl

/-- Looking several keys up finds what the cache still has of them, and notes the other keys. -/
theorem getEach_memory (s : Store V) (keys : List CacheKey) (h : Shelf Memory) :
    (∀ key, (s.getEach keys h).1.1.get? key = if key ∈ keys then s.kept? h key else none) ∧
      (s.getEach keys h).1.2 = keys.filter (fun key => (s.kept? h key).isNone) ∧
      h.Unwritten (s.getEach keys h).2 := by
  induction keys generalizing h with
  | nil => exact ⟨fun _ => rfl, rfl, rfl, fun _ => rfl, rfl, rfl⟩
  | cons key keys ih =>
    obtain ⟨answer, first⟩ := s.get_memory key h
    obtain ⟨found, missing, rest⟩ := ih (s.get key h).2
    have kept (k : CacheKey) : s.kept? (s.get key h).2 k = s.kept? h k := by
      rw [kept?, first.now, first.live, kept?]
    simp only [kept] at found missing
    have unwritten := first.trans rest
    cases hit : s.kept? h key with
    | some v =>
      simp only [getEach, answer, hit]
      refine ⟨fun k => ?_, ?_, unwritten⟩
      · rw [Table.get?_put, found]
        by_cases here : k = key
        · simp [here, hit]
        · simp [here]
      · simp [missing, hit]
    | none =>
      simp only [getEach, answer, hit]
      refine ⟨fun k => ?_, ?_, unwritten⟩
      · rw [found]
        by_cases here : k = key
        · simp [here, hit]
        · simp [here]
      · simp [missing, hit]

/-- Storing several values, each of which shows as the same if it is stored under this key. -/
theorem cacheMany_memory (s : Store V) {values : List (CacheKey × V)} {h : Shelf Memory}
    {k : String} {v? : Option Stored} (reaches : h.backend.reaches h.now s.ttl = true)
    (written : ∀ kv ∈ values, kv.1.text = k →
      Stored.live? ⟨s.write h.now kv.2, s.ttl.map (h.now + ·)⟩ h.now = v?)
    (before : k ∉ values.map (·.1.text) → h.backend.live? h.now k = v?) :
    (s.cacheMany values h).backend.live? h.now k = v? := by
  rw [cacheMany]
  split
  · next none => exact before (by rw [List.isEmpty_iff.1 none]; simp)
  · refine Memory.live?_putMany_eq reaches (fun data member => ?_) fun other => before ?_
    · obtain ⟨kv, stored, same⟩ := List.mem_map.1 member
      obtain ⟨key, rfl⟩ := Prod.mk.inj same
      exact written kv stored key
    · rwa [List.map_map] at other

/-- What was cached before stays if storing several values breaks down. -/
theorem cacheMany_of_not_reaches (s : Store V) (values : List (CacheKey × V)) {h : Shelf Memory}
    (breaks : h.backend.reaches h.now s.ttl = false) (later : Nat) (k : String) :
    (s.cacheMany values h).backend.live? later k = h.backend.live? later k := by
  rw [cacheMany]
  split
  · rfl
  · have stays := Memory.putMany_of_not_reaches breaks
      (values.map fun kv => (kv.1.text, s.write h.now kv.2))
    exact (congrArg (fun m : Memory => m.live? later k) stays).trans rfl

/-- Storing several values breaks down if there are any and the clock does not reach the end of
their lifetime. -/
theorem breakdowns_cacheMany_eq_iff (s : Store V) (values : List (CacheKey × V))
    (h : Shelf Memory) : (s.cacheMany values h).backend.breakdowns = h.backend.breakdowns ↔
      values = [] ∨ h.backend.reaches h.now s.ttl = true := by
  rw [cacheMany]
  split
  · next none => simp [List.isEmpty_iff.1 none]
  · next some =>
    have some : values ≠ [] := fun none => some (List.isEmpty_iff.2 none)
    refine Iff.trans ?_ (or_iff_right some).symm
    exact Memory.breakdowns_putMany_eq_iff (values.map fun kv => (kv.1.text, s.write h.now kv.2))

/-- A loader that notes what it is asked for is asked once at most, for what is missing. -/
theorem getAllOrLoad_noting {σ ε α : Type} [Backend σ] (s : Store V) (keys : List CacheKey)
    (load : List CacheKey → Except ε (List (CacheKey × V))) (note : List CacheKey → α)
    (h : Shelf σ) (notes : List α) :
    let plain := s.getAllOrLoad keys (fun missing () => (load missing, ())) h ()
    let missing := (s.getEach keys.eraseDups h).1.2
    s.getAllOrLoad keys (fun missing notes => (load missing, notes ++ [note missing])) h notes =
      (plain.1, plain.2.1, notes ++ if missing.isEmpty then [] else [note missing]) := by
  simp only [getAllOrLoad]
  cases (s.getEach keys.eraseDups h).1.2 with
  | nil => simp
  | cons key keys' => cases load (key :: keys') <;> simp

end Store

/-! ## Views -/

/-- What a cache still has under each key. -/
abbrev View := String → Option Stored

def World.view (w : World Memory) : View :=
  w.cache.live? w.link.now

namespace EntryService

def seen (s : EntryService) (view : View) (id : EntryId) : Option Entry :=
  (view (s.key id).text).bind fun v => s.store.read v.data

/-- What is left of an entry that was cached now; nothing if entries are kept for no time. -/
def left (s : EntryService) (now : Nat) (e : Entry) : Option Stored :=
  Stored.live? ⟨s.store.write now e, s.store.ttl.map (now + ·)⟩ now

/-- What looking an entry up gives if the durable store has these rows. -/
def answer (s : EntryService) (row? : EntryId → Option Entry) (view : View) (id : EntryId) :
    Option Entry :=
  (s.seen view id).or (row? id)

/-- The rows that can be cached: none if the clock does not reach the end of their lifetime. -/
def cacheable? (s : EntryService) (w : World Memory) (row? : EntryId → Option Entry)
    (id : EntryId) : Option Entry :=
  if w.cache.reaches w.link.now s.store.ttl then row? id else none

/-- Whether each of these entries is seen, or has a row that can be cached, or has none. -/
def Served (s : EntryService) (w : World Memory) (row? : EntryId → Option Entry)
    (ids : List EntryId) : Prop :=
  ∀ id ∈ ids, s.seen w.view id = none → s.cacheable? w row? id = row? id

def readThrough (s : EntryService) (now : Nat) (row? : EntryId → Option Entry) (view : View)
    (id : EntryId) : View :=
  match s.seen view id, row? id with
  | none, some e => Function.update view (s.key id).text (s.left now e)
  | _, _ => view

def findEach {σ : Type} [Backend σ] (s : EntryService) :
    List EntryId → World σ → List (Except SyncError (Option Entry)) × World σ
  | [], w => ([], w)
  | id :: ids, w =>
    let (result, w) := s.find id w
    let (results, w) := s.findEach ids w
    (result :: results, w)

/-- Looks several entries up, with an account of what the durable store is asked for. -/
def findManyNoting {σ : Type} [Backend σ] (s : EntryService) (ids : List EntryId) (w : World σ)
    (queries : List (List EntryId)) :
    Except SyncError (List Entry) × World σ × List (List EntryId) :=
  let keys := ids.map s.key
  let (result, h, queries) := s.store.getAllOrLoad keys
    (fun missing queries =>
      (s.loadMany w.database (s.idsOf ids missing), queries ++ [s.idsOf ids missing]))
    w.entryShelf queries
  (result.map fun found => keys.filterMap found.get?, w.putEntryShelf h, queries)

section

variable {s : EntryService} {ttl : Option Nat} (stores : s.store = storeOf s.env ttl)
  {row? : EntryId → Option Entry} {now : Nat} {view : View}

theorem seen_update_of_ne {id id' : EntryId} (other : id' ≠ id) (v? : Option Stored) :
    s.seen (Function.update view (s.key id).text v?) id' = s.seen view id' := by
  have key : (s.key id').text ≠ (s.key id).text := fun same => other (s.key_injective same)
  rw [seen, Function.update_of_ne key, seen]

include stores in
theorem seen_left {e e' : Entry} {id : EntryId} (cached : view (s.key id).text = s.left now e)
    (found : s.seen view id = some e') : e' = e.shown := by
  rw [seen, cached, left, Stored.live?] at found
  split at found
  · cases found
  · rw [Option.bind_some, read_write stores] at found
    exact (Option.some.inj found).symm

theorem cacheable?_of_reaches {w : World Memory}
    (reaches : w.cache.reaches w.link.now s.store.ttl = true) : s.cacheable? w row? = row? :=
  funext fun _ => if_pos reaches

theorem cacheable?_of_not_reaches {w : World Memory}
    (breaks : w.cache.reaches w.link.now s.store.ttl = false) :
    s.cacheable? w row? = fun _ => none :=
  funext fun _ => if_neg (Bool.eq_false_iff.1 breaks)

theorem row?_of_cacheable? {w : World Memory} {id : EntryId} {e : Entry}
    (can : s.cacheable? w row? id = some e) : row? id = some e := by
  rw [cacheable?] at can
  split at can
  · exact can
  · cases can

theorem readThrough_none (id : EntryId) :
    s.readThrough now (fun _ => none) view id = view := by
  rw [readThrough]
  split
  next none => cases none
  next => rfl

include stores in
/-- Reading an entry through makes no difference to what is answered then. -/
theorem answer_readThrough (onClock : ∀ id e, row? id = some e → e.OnClock)
    {cached? : EntryId → Option Entry} (rows : ∀ {id e}, cached? id = some e → row? id = some e)
    (id id' : EntryId) :
    s.answer row? (s.readThrough now cached? view id) id' = s.answer row? view id' := by
  rw [readThrough]
  split
  · next e miss row =>
    by_cases same : id' = id
    · subst same
      rw [answer, answer, miss, rows row, Option.none_or]
      cases found : s.seen (Function.update view (s.key id').text (s.left now e)) id' with
      | none => rfl
      -- if it has not expired at once, what was cached now reads as the row
      | some e' =>
        rw [seen_left stores (Function.update_self ..) found, (onClock id' e (rows row)).shown,
          Option.some_or]
    · rw [answer, seen_update_of_ne same, answer]
  · rfl

/-! ## One after another -/

section

variable {w : World Memory} (sound : ∀ op, w.database.fails op = none)
  (rows : ∀ id, w.database.tables.findEntry id = .ok (row? id))
include sound rows

/-- Looking an entry up answers with what is seen, or else with the row, which is cached if that
does not break down. -/
theorem find_eq (s : EntryService) (id : EntryId) :
    (s.find id w).1 = .ok (s.answer row? w.view id) ∧
      (s.find id w).2.view = s.readThrough w.link.now (s.cacheable? w row?) w.view id ∧
      (s.find id w).2.link.now = w.link.now ∧ (s.find id w).2.database = w.database ∧
      ((s.find id w).2.cache.breakdowns = w.cache.breakdowns ↔ s.Served w row? [id]) := by
  obtain ⟨hit, unwritten⟩ := s.store.get_memory (s.key id) w.entryShelf
  have hit : (s.store.get (s.key id) w.entryShelf).1 = s.seen w.view id := hit
  simp only [Served, List.forall_mem_singleton]
  rw [find, Store.getOrLoad]
  cases looked : s.store.get (s.key id) w.entryShelf with
  | mk e? h =>
    rw [looked] at hit unwritten
    subst hit
    have view : h.backend.live? w.link.now = w.view := funext unwritten.live
    have broken : h.backend.breakdowns = w.cache.breakdowns := unwritten.breakdowns
    cases seen : s.seen w.view id with
    | some e =>
      refine ⟨by rw [answer, seen]; rfl, ?_, rfl, rfl, iff_of_true broken (by simp)⟩
      rw [readThrough, seen]
      exact view
    | none =>
      have loaded : load w.database id = (row? id).elim (.error (.notFound id)) .ok := by
        rw [load, findEntry_of_sound sound, rows, stored]
        cases row? id <;> rfl
      cases row : row? id with
      | none =>
        have absent : s.cacheable? w row? id = none := by rw [cacheable?, row, ite_self]
        rw [row, Option.elim_none] at loaded
        simp only [loaded]
        refine ⟨by rw [answer, seen, row]; rfl, ?_, rfl, rfl,
          iff_of_true broken fun _ => absent⟩
        rw [readThrough, seen, absent]
        exact view
      | some e =>
        rw [row, Option.elim_some] at loaded
        obtain ⟨stats, wrote⟩ := s.store.writeThrough_eq (s.key id) e h.countLoad
        simp only [loaded, wrote]
        have now : h.countLoad.now = w.link.now := unwritten.now
        have reaches : h.countLoad.backend.reaches w.link.now s.store.ttl =
            w.cache.reaches w.link.now s.store.ttl := Memory.reaches_congr unwritten.horizon
        refine ⟨by rw [answer, seen, row]; rfl, ?_, rfl, rfl, ?_⟩
        · refine funext fun k => ?_
          have before : h.countLoad.backend.live? w.link.now k = w.cache.live? w.link.now k :=
            unwritten.live k
          rw [readThrough, seen, cacheable?, row]
          simp only [World.view, World.putEntryShelf, Backend.set, now, Memory.live?_put, reaches]
          cases w.cache.reaches w.link.now s.store.ttl with
          | true => simp [Function.update_apply, left, before]
          | false => simp [before]
        · rw [← broken, cacheable?, row, ← reaches, ← now]
          refine (Memory.breakdowns_putMany_eq_iff
            [((s.key id).text, s.store.write h.countLoad.now e)]).trans ?_
          simp

omit sound rows in
/-- The rows that can be cached are the same after a look-up. -/
theorem cacheable?_find (s : EntryService) (id : EntryId)
    (now : (s.find id w).2.link.now = w.link.now) :
    s.cacheable? (s.find id w).2 row? = s.cacheable? w row? := by
  let asked : Except SyncError Entry × Shelf Memory × Unit :=
    s.store.getOrLoad (s.key id) (fun () => (load w.database id, ())) w.entryShelf ()
  have led : w.entryShelf.LeadsWithin (fun _ => True) asked.2.1 :=
    s.store.leads_getOrLoad trivial _ w.entryShelf ()
  have clock : (s.find id w).2.cache.horizon = w.cache.horizon := by
    rw [find]
    dsimp only
    split <;> exact led.leads.horizon_eq
  funext id'
  rw [cacheable?, now, Memory.reaches_congr clock, cacheable?]

omit sound rows in
theorem breakdowns_le_findEach (s : EntryService) (ids : List EntryId) (w : World Memory) :
    w.cache.breakdowns ≤ (s.findEach ids w).2.cache.breakdowns := by
  induction ids generalizing w with
  | nil => exact Nat.le_refl _
  | cons id ids ih => exact Nat.le_trans (s.breakdowns_le_step w (.find id)) (ih (s.find id w).2)

include stores in
theorem findEach_eq (ids : List EntryId) :
    (s.findEach ids w).1 = (ids.map (s.answer row? w.view)).map .ok ∧
      (s.findEach ids w).2.view =
        ids.foldl (s.readThrough w.link.now (s.cacheable? w row?)) w.view ∧
      (s.findEach ids w).2.link.now = w.link.now ∧
      ((s.findEach ids w).2.cache.breakdowns = w.cache.breakdowns ↔ s.Served w row? ids) := by
  induction ids generalizing w with
  | nil => exact ⟨rfl, rfl, rfl, iff_of_true rfl (List.forall_mem_nil _)⟩
  | cons id ids ih =>
    obtain ⟨first, view, now, database, returned⟩ := find_eq sound rows s id
    obtain ⟨results, last, after, rest⟩ := ih (w := (s.find id w).2)
      (by rw [database]; exact sound) (by rw [database]; exact rows)
    have same : s.cacheable? (s.find id w).2 row? = s.cacheable? w row? := s.cacheable?_find id now
    rw [view] at results last
    rw [now, same] at last
    refine ⟨?_, last, after.trans now, ?_⟩
    · have onClock : ∀ id e, row? id = some e → e.OnClock := fun id e row =>
        Tables.onClock_of_findEntry ((rows id).trans (congrArg Except.ok row))
      have same : s.answer row? (s.readThrough w.link.now (s.cacheable? w row?) w.view id) =
          s.answer row? w.view :=
        funext (answer_readThrough stores onClock row?_of_cacheable? id)
      rw [same] at results
      rw [findEach, List.map_cons, List.map_cons, ← first, ← results]
    · have served : s.Served (s.find id w).2 row? ids ↔ s.Served w row? ids := by
        rw [Served, Served, same, view]
        cases reaches : w.cache.reaches w.link.now s.store.ttl with
        | true => simp [cacheable?_of_reaches reaches]
        | false => simp [cacheable?_of_not_reaches reaches, readThrough_none]
      have stages : (s.findEach (id :: ids) w).2.cache.breakdowns = w.cache.breakdowns ↔
          (s.find id w).2.cache.breakdowns = w.cache.breakdowns ∧
            (s.findEach ids (s.find id w).2).2.cache.breakdowns =
              (s.find id w).2.cache.breakdowns := by
        have first : w.cache.breakdowns ≤ (s.find id w).2.cache.breakdowns :=
          s.breakdowns_le_step w (.find id)
        have rest := s.breakdowns_le_findEach ids (s.find id w).2
        rw [findEach]
        dsimp only
        omega
      rw [stages, returned, rest, served, Served, Served, Served, List.forall_mem_singleton,
        List.forall_mem_cons]

end

/-! ## The rows that were missing -/

/-- A view that has come about by caching the rows of those entries that were not seen. -/
structure Filled (s : EntryService) (now : Nat) (row? : EntryId → Option Entry) (view : View)
    (ids : List EntryId) (after : View) : Prop where
  cached : ∀ id ∈ ids, s.seen view id = none → ∀ e, row? id = some e →
    after (s.key id).text = s.left now e
  others : ∀ text, after text = view text ∨
    ∃ id ∈ ids, s.seen view id = none ∧ (row? id).isSome ∧ (s.key id).text = text

namespace Filled

variable {ids : List EntryId} {after : View} (h : s.Filled now row? view ids after)
include h

theorem unique {after' : View} (h' : s.Filled now row? view ids after') : after = after' := by
  have cached : ∀ id ∈ ids, s.seen view id = none → (row? id).isSome →
      after (s.key id).text = after' (s.key id).text := by
    intro id asked missed row
    obtain ⟨e, row⟩ := Option.isSome_iff_exists.1 row
    rw [h.cached id asked missed e row, h'.cached id asked missed e row]
  funext text
  rcases h.others text with same | ⟨id, asked, missed, row, rfl⟩
  · rcases h'.others text with same' | ⟨id, asked, missed, row, rfl⟩
    · rw [same, same']
    · exact cached id asked missed row
  · exact cached id asked missed row

/-- An entry is seen as before, unless it was not seen and has been cached. -/
theorem seen_or (id : EntryId) :
    s.seen after id = s.seen view id ∨ id ∈ ids ∧ s.seen view id = none := by
  rcases h.others (s.key id).text with same | ⟨id', asked, missed, -, key⟩
  · exact .inl (by rw [seen, same, seen])
  · cases s.key_injective key
    exact .inr ⟨asked, missed⟩

/-- A further entry that is looked up is cached, unless it was seen or had been cached before. -/
theorem readThrough (id : EntryId) :
    s.Filled now row? view (ids ++ [id]) (s.readThrough now row? after id) := by
  have earlier (text : String) : after text = view text ∨ ∃ id' ∈ ids ++ [id],
      s.seen view id' = none ∧ (row? id').isSome ∧ (s.key id').text = text :=
    (h.others text).imp_right fun ⟨id', asked, rest⟩ => ⟨id', List.mem_append_left _ asked, rest⟩
  rw [EntryService.readThrough]
  split
  · next e miss row =>
    have missed : s.seen view id = none := (h.seen_or id).elim (fun same => same ▸ miss) And.right
    refine ⟨fun id' asked missed' e' row' => ?_, fun text => ?_⟩
    · by_cases here : id' = id
      · cases here
        cases row.symm.trans row'
        exact Function.update_self ..
      · have before : id' ∈ ids := by simpa [here] using asked
        rw [Function.update_of_ne fun key => here (s.key_injective key)]
        exact h.cached id' before missed' e' row'
    · by_cases here : text = (s.key id).text
      · exact .inr ⟨id, by simp, missed, by rw [row]; rfl, here.symm⟩
      · rw [Function.update_of_ne here]
        exact earlier text
  · next known =>
    -- the entry is seen now or has no row, so it was cached before if it ought to be
    refine ⟨fun id' asked missed e row => ?_, fun text => ?_⟩
    · rcases List.mem_append.1 asked with before | here
      · exact h.cached id' before missed e row
      · rw [List.mem_singleton.1 here] at missed row ⊢
        rcases h.seen_or id with same | ⟨before, -⟩
        · exact absurd row (known e (same.trans missed))
        · exact h.cached id before missed e row
    · exact earlier text

end Filled

/-- Looking entries up one after another caches those that were not seen at the start. -/
theorem filled_foldl (s : EntryService) (now : Nat) (row? : EntryId → Option Entry) (view : View)
    (ids : List EntryId) :
    s.Filled now row? view ids (ids.foldl (s.readThrough now row?) view) := by
  induction ids using List.reverseRecOn with
  | nil => exact ⟨by simp, fun _ => .inl rfl⟩
  | append_singleton ids id ih =>
    rw [List.foldl_append]
    exact ih.readThrough id

end

/-! ## At once -/

section

variable {w : World Memory} {row? : EntryId → Option Entry}
  (sound : ∀ op, w.database.fails op = none) (readable : w.database.tables.Readable)
  (rows : ∀ id, w.database.tables.findEntry id = .ok (row? id))

theorem mem_missing (s : EntryService) (w : World Memory) (ids : List EntryId) (id : EntryId) :
    s.key id ∈ (s.store.getEach (ids.map s.key).eraseDups w.entryShelf).1.2 ↔
      id ∈ ids ∧ s.seen w.view id = none := by
  have key : Function.Injective s.key := fun a b same => s.key_injective (congrArg _ same)
  rw [(s.store.getEach_memory _ w.entryShelf).2.1, List.mem_filter, List.mem_eraseDups,
    List.mem_map_of_injective key, Option.isNone_iff_eq_none]
  rfl

include sound readable rows

/-- What is loaded are the rows of the entries that are not seen. -/
theorem findMany_eq (s : EntryService) (ids : List EntryId) :
    ∃ (found : Table CacheKey Entry) (es : List Entry) (h : Shelf Memory),
      (∀ id ∈ ids, found.get? (s.key id) = s.seen w.view id) ∧
      (∀ id e, e ∈ es ∧ e.id = id ↔ id ∈ ids ∧ s.seen w.view id = none ∧ row? id = some e) ∧
      w.entryShelf.Unwritten h ∧
      let loaded := es.map fun e => (s.key e.id, e)
      s.findMany ids w = (.ok ((ids.map s.key).filterMap (found.putAll loaded).get?),
        w.putEntryShelf (s.store.cacheMany loaded h)) := by
  obtain ⟨seen, -, unwritten⟩ := s.store.getEach_memory (ids.map s.key).eraseDups w.entryShelf
  have lacks := s.mem_missing w ids
  rw [findMany, Store.getAllOrLoad]
  generalize s.store.getEach (ids.map s.key).eraseDups w.entryShelf = sifting at *
  obtain ⟨⟨found, missing⟩, h⟩ := sifting
  have seen : ∀ id ∈ ids, found.get? (s.key id) = s.seen w.view id := by
    intro id asked
    rw [seen, if_pos (List.mem_eraseDups.2 (List.mem_map_of_mem asked))]
    rfl
  by_cases complete : missing.isEmpty
  · refine ⟨found, [], h, seen, fun id e => ⟨by simp, ?_⟩, unwritten, ?_⟩
    · rintro ⟨asked, missed, -⟩
      have member := (lacks id).2 ⟨asked, missed⟩
      simp [List.isEmpty_iff.1 complete] at member
    · simp only [complete, if_true]
      rfl
  · obtain ⟨es, read, members⟩ := readable.findEntries (s.idsOf ids missing)
    have loaded : s.loadMany w.database (s.idsOf ids missing) =
        .ok (es.map fun e => (s.key e.id, e)) := by
      rw [loadMany, Database.findEntries, Database.ask, sound, read]
      rfl
    refine ⟨found, es, h.countLoad, seen, fun id e => ?_,
      ⟨unwritten.now, unwritten.live, unwritten.horizon, unwritten.breakdowns⟩, ?_⟩
    · rw [members, mem_idsOf, lacks, rows, Except.ok.injEq]
      constructor
      · rintro ⟨⟨⟨asked, -, missed⟩, row⟩, rfl⟩
        exact ⟨asked, missed, row⟩
      · rintro ⟨asked, missed, row⟩
        have own : e.id = id := readable.id_of_findEntry (by rw [rows, row])
        subst own
        exact ⟨⟨⟨asked, asked, missed⟩, row⟩, rfl⟩
    · simp only [complete, loaded, Bool.false_eq_true, if_false]
      rfl

/-- Looking several entries up at once gives what looking each up gives at the start. -/
theorem answer_findMany (s : EntryService) (ids : List EntryId) :
    (s.findMany ids w).1 = .ok (ids.filterMap (s.answer row? w.view)) := by
  obtain ⟨found, es, h, seen, members, -, looked⟩ := findMany_eq sound readable rows s ids
  rw [looked, List.filterMap_map]
  refine congrArg Except.ok (List.filterMap_congr fun id asked => ?_)
  refine Table.get?_putAll_eq (fun e? => e?) (fun e stored => ?_) fun notLoaded => ?_
  · obtain ⟨e, loaded, pair⟩ := List.mem_map.1 stored
    obtain ⟨key, rfl⟩ := Prod.mk.inj pair
    have own : e.id = id := s.key_injective (congrArg CacheKey.text key)
    obtain ⟨-, missed, row⟩ := (members id e).1 ⟨loaded, own⟩
    rw [answer, missed, row, Option.none_or]
  · rw [seen id asked, answer]
    cases missed : s.seen w.view id with
    | some e => rfl
    | none =>
      cases row : row? id with
      | none => rfl
      | some e =>
        obtain ⟨loaded, own⟩ := (members id e).2 ⟨asked, missed, row⟩
        refine absurd ?_ notLoaded
        rw [List.map_map]
        exact List.mem_map.2 ⟨e, loaded, congrArg s.key own⟩

/-- Looking several entries up at once caches the rows of those that were not seen, if they can be
cached. -/
theorem filled_findMany (s : EntryService) (ids : List EntryId) :
    s.Filled w.link.now (s.cacheable? w row?) w.view ids (s.findMany ids w).2.view ∧
      (s.findMany ids w).2.link.now = w.link.now := by
  obtain ⟨found, es, h, seen, members, unwritten, looked⟩ :=
    findMany_eq sound readable rows s ids
  refine ⟨?_, by rw [looked]; rfl⟩
  have now : h.now = w.link.now := unwritten.now
  have before (k : String) : h.backend.live? h.now k = w.view k := by
    rw [now]
    exact unwritten.live k
  have clock : h.backend.reaches h.now s.store.ttl = w.cache.reaches w.link.now s.store.ttl :=
    unwritten.reaches s.store.ttl
  have view (k : String) : (s.findMany ids w).2.view k =
      (s.store.cacheMany (es.map fun e => (s.key e.id, e)) h).backend.live? h.now k := by
    rw [looked, now]
    rfl
  cases reaches : w.cache.reaches w.link.now s.store.ttl with
  | false =>
    rw [cacheable?_of_not_reaches reaches]
    refine ⟨fun _ _ _ _ => nofun, fun text => .inl ?_⟩
    rw [view, s.store.cacheMany_of_not_reaches _ (clock.trans reaches), before]
  | true =>
    have reaches' := clock.trans reaches
    rw [cacheable?_of_reaches reaches]
    refine ⟨fun id asked missed e row => ?_, fun text => ?_⟩
    · obtain ⟨loaded, own⟩ := (members id e).2 ⟨asked, missed, row⟩
      rw [view]
      refine s.store.cacheMany_memory reaches' ?_ ?_
      · intro kv stored key
        obtain ⟨e', loaded', rfl⟩ := List.mem_map.1 stored
        obtain ⟨-, -, row'⟩ := (members id e').1 ⟨loaded', s.key_injective key⟩
        cases row.symm.trans row'
        rw [left, now]
      · intro notLoaded
        refine absurd ?_ notLoaded
        rw [List.map_map]
        exact List.mem_map.2 ⟨e, loaded, congrArg (fun id => (s.key id).text) own⟩
    · by_cases loaded : ∃ e ∈ es, (s.key e.id).text = text
      · obtain ⟨e, loaded, key⟩ := loaded
        obtain ⟨asked, missed, row⟩ := (members e.id e).1 ⟨loaded, rfl⟩
        exact .inr ⟨e.id, asked, missed, by rw [row]; rfl, key⟩
      · refine .inl ?_
        rw [view]
        refine s.store.cacheMany_memory reaches' ?_ fun _ => before text
        intro kv stored key
        obtain ⟨e, member, rfl⟩ := List.mem_map.1 stored
        exact absurd ⟨e, member, key⟩ loaded

theorem breakdowns_findMany (s : EntryService) (ids : List EntryId) :
    (s.findMany ids w).2.cache.breakdowns = w.cache.breakdowns ↔ s.Served w row? ids := by
  obtain ⟨found, es, h, seen, members, unwritten, looked⟩ :=
    findMany_eq sound readable rows s ids
  have clock : h.backend.reaches h.now s.store.ttl = w.cache.reaches w.link.now s.store.ttl :=
    unwritten.reaches s.store.ttl
  have broken : h.backend.breakdowns = w.cache.breakdowns := unwritten.breakdowns
  rw [looked, ← broken]
  refine (s.store.breakdowns_cacheMany_eq_iff _ h).trans ?_
  rw [List.map_eq_nil_iff, clock]
  cases reaches : w.cache.reaches w.link.now s.store.ttl with
  | true => simp [Served, cacheable?_of_reaches reaches]
  | false =>
    rw [Served, cacheable?_of_not_reaches reaches]
    constructor
    · rintro (rfl | reaches) id asked missed
      · refine (Option.eq_none_iff_forall_ne_some.2 fun e row => ?_).symm
        exact List.not_mem_nil ((members id e).2 ⟨asked, missed, row⟩).1
      · cases reaches
    · intro served
      refine .inl (List.eq_nil_iff_forall_not_mem.2 fun e loaded => ?_)
      obtain ⟨asked, missed, row⟩ := (members e.id e).1 ⟨loaded, rfl⟩
      cases (served e.id asked missed).trans row

end

/-- Noting what the durable store is asked for changes nothing else. It is asked once at most, and
not at all if no key is missing. -/
theorem findManyNoting_eq {σ : Type} [Backend σ] (s : EntryService) (ids : List EntryId)
    (w : World σ) (queries : List (List EntryId)) :
    let missing := (s.store.getEach (ids.map s.key).eraseDups w.entryShelf).1.2
    s.findManyNoting ids w queries = ((s.findMany ids w).1, (s.findMany ids w).2,
      queries ++ if missing.isEmpty then [] else [s.idsOf ids missing]) := by
  simp only [findManyNoting, findMany, Store.getAllOrLoad_noting]

/-- Looking several entries up at once gives, in their order and without those that do not exist,
what looking each of them up one after another gives, and breaks down just if one of these look-ups
does. Whatever the cache had, it has the same then under each key, and for as long. The durable
store is asked once at most, and not at all if all are seen in the cache. -/
theorem findMany_agrees (s : EntryService) {ttl : Option Nat} (stores : s.store = storeOf s.env ttl)
    (w : World Memory) (sound : ∀ op, w.database.fails op = none)
    (readable : w.database.tables.Readable) (ids : List EntryId) :
    ∃ (found : List (Option Entry)) (queries : List (List EntryId)),
      (s.findEach ids w).1 = found.map .ok ∧ (s.findMany ids w).1 = .ok found.reduceOption ∧
      (s.findEach ids w).2.link.now = w.link.now ∧ (s.findMany ids w).2.link.now = w.link.now ∧
      ((s.findMany ids w).2.cache.breakdowns = w.cache.breakdowns ↔
        (s.findEach ids w).2.cache.breakdowns = w.cache.breakdowns) ∧
      (∀ key, (s.findMany ids w).2.view key = (s.findEach ids w).2.view key) ∧
      s.findManyNoting ids w [] = ((s.findMany ids w).1, (s.findMany ids w).2, queries) ∧
      queries.length ≤ 1 ∧ ((∀ id ∈ ids, (s.seen w.view id).isSome) → queries = []) := by
  have each (id : EntryId) : ∃ row?, w.database.tables.findEntry id = .ok row? :=
    (readable.findEntry id).imp fun _ found => found.1
  choose row? rows using each
  obtain ⟨results, view, now, returned⟩ := findEach_eq stores sound rows ids
  obtain ⟨filled, now'⟩ := filled_findMany sound readable rows s ids
  have same : (s.findMany ids w).2.view = (s.findEach ids w).2.view := by
    rw [view]
    exact filled.unique (filled_foldl s w.link.now (s.cacheable? w row?) w.view ids)
  refine ⟨ids.map (s.answer row? w.view), _, results, ?_, now, now',
    (breakdowns_findMany sound readable rows s ids).trans returned.symm, congrFun same,
    s.findManyNoting_eq ids w [], ?_, fun all => ?_⟩
  · refine (answer_findMany sound readable rows s ids).trans (congrArg Except.ok ?_)
    exact (List.filterMap_map : _ = ids.filterMap (id ∘ s.answer row? w.view)).symm
  · rw [List.nil_append]
    split <;> simp
  · have none : (s.store.getEach (ids.map s.key).eraseDups w.entryShelf).1.2 = [] := by
      rw [(s.store.getEach_memory _ w.entryShelf).2.1, List.filter_eq_nil_iff]
      intro key member
      obtain ⟨id, asked, rfl⟩ := List.mem_map.1 (List.mem_eraseDups.1 member)
      have seen : (s.store.kept? w.entryShelf (s.key id)).isSome := all id asked
      simpa [Option.isSome_iff_ne_none] using seen
    simp [none]

/-- Among the ids are one whose cached text is no entry, one that is asked for twice and has a
cached entry older than its row, an unknown one, and one whose cached text has expired. -/
theorem findMany_agrees_mixed :
    let env : Surroundings := {
      transport := fun _ _ => ⟨none⟩
      timeOfDay := fun _ => .epoch }
    let s : EntryService := {
      client := {
        baseUrl := "https://host"
        policy := .ofConfig {}
        mode := .failFast
        timeouts := {}
        permits := 1 }
      env
      store := storeOf env (some 1000)
      scope := "league" }
    let entry (id : EntryId) (name : String) : Entry := {
      id, name, playerName := "", region := none, startedGameweek := none
      overallPoints := none, overallRank := none, bank := none, teamValue := none
      gameweek := none, updatedAt := .epoch }
    let cached (id : EntryId) (data : String) (expiresAt : Nat) : String × Stored :=
      ((s.key id).text, ⟨data, some expiresAt⟩)
    let rows := [entry 7 "Reds", entry 8 "Blues", entry 9 "Greens"]
    let time := "1970-01-01T00:00:00Z"
    let old := "\x7b\"value\":\x7b\"entry_id\":7,\"entry_name\":\"Old Reds\",\"player_name\":\"\"," ++
      "\"updated_at\":\"" ++ time ++ "\"\x7d,\"cached_at\":\"" ++ time ++ "\"\x7d"
    let w : World Memory := {
      link := .start {} 0
      database := { tables := rows.foldl Tables.upsertEntry {} }
      cache := { items := Table.empty.putAll [
        cached 7 old 5,
        cached 8 "no entry" 5,
        cached 9 old 0] } }
    let ids : List EntryId := [8, 7, 10, 9, 7]
    w.database.tables.Readable ∧
      (s.findMany ids w).1 = .ok [entry 8 "Blues", entry 7 "Old Reds", entry 9 "Greens",
        entry 7 "Old Reds"] ∧
      ∀ key, (s.findMany ids w).2.view key = (s.findEach ids w).2.view key := by
  intro env s entry cached rows time old w ids
  have plain := Timestamp.hasPlainYear_epoch
  have readable : w.database.tables.Readable :=
    ((Tables.readable_empty.upsertEntry plain).upsertEntry plain).upsertEntry plain
  let answers : List (Option Entry) := [some (entry 8 "Blues"), some (entry 7 "Old Reds"), none,
    some (entry 9 "Greens"), some (entry 7 "Old Reds")]
  have one : (s.findEach ids w).1 = answers.map .ok := by decide +kernel
  obtain ⟨found, queries, each, many, -, -, -, same, -⟩ :=
    findMany_agrees s rfl w (fun _ => rfl) readable ids
  have found : found = answers :=
    List.map_injective_iff.2 (fun _ _ => Except.ok.inj) (each.symm.trans one)
  subst found
  exact ⟨readable, many, same⟩

end EntryService
end LeagueSync
