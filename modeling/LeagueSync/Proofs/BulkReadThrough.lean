import LeagueSync.Proofs.ReadThrough
import Mathlib.Data.List.Basic

/-!
# LeagueSync.Proofs.BulkReadThrough

Reading several values through a cache at once. Each distinct key is looked up once, in the order in
which the keys were first named, and what is missing then is loaded by one call. What a backend
answers may change with every look-up, so what is found under a key is told by the state in which
its turn comes (`Store.hit?`).

* `pairwise_eraseDups`: distinct members stand in the order in which they first occurred.
* `KeepingMany`: backends for which storing several values is storing one after another, with
  `Memory.keepingMany` for the one in memory.
* `Store.getEach_eq`: what is found and missed when keys are looked up in turn.
* `Store.ReadsMany`: what is looked up, loaded, written and given, by what is found in the cache;
  `Store.getAllOrLoad_noted`: for any backend.
* `Store.hit?_again`: what was read is found when the same keys are read once more.
* `Store.getAllOrLoad_bulk`: any bulk read, and the same one again.
-/

namespace LeagueSync

/-! ## Distinct members -/

section

variable {α : Type} [DecidableEq α]

theorem idxOf_lt_of_filter {p : α → Bool} {x y : α} (hx : p x) (hy : p y) {as : List α}
    (lt : (as.filter p).idxOf x < (as.filter p).idxOf y) : as.idxOf x < as.idxOf y := by
  induction as with
  | nil => simp at lt
  | cons a as ih =>
    by_cases kept : p a
    · rw [List.filter_cons_of_pos kept] at lt
      by_cases second : a = y
      · rw [second, List.idxOf_cons_self] at lt
        exact absurd lt (Nat.not_lt_zero _)
      by_cases first : a = x
      · rw [first, List.idxOf_cons_self, ← first, List.idxOf_cons_ne _ second]
        exact Nat.succ_pos _
      · rw [List.idxOf_cons_ne _ first, List.idxOf_cons_ne _ second] at lt ⊢
        exact Nat.succ_lt_succ (ih (Nat.lt_of_succ_lt_succ lt))
    · rw [List.filter_cons_of_neg kept] at lt
      have first : a ≠ x := fun same => kept (same ▸ hx)
      have second : a ≠ y := fun same => kept (same ▸ hy)
      rw [List.idxOf_cons_ne _ first, List.idxOf_cons_ne _ second]
      exact Nat.succ_lt_succ (ih lt)

theorem pairwise_eraseDups (as : List α) :
    as.eraseDups.Pairwise fun x y => as.idxOf x < as.idxOf y := by
  -- the members that equal the first go, so the induction is on the length
  induction len : as.length using Nat.strongRecOn generalizing as with
  | ind n ih =>
    cases as with
    | nil => simp
    | cons a as =>
      rw [List.eraseDups_cons, List.pairwise_cons]
      have other {x : α} (member : x ∈ (as.filter fun b => !b == a).eraseDups) : x ≠ a := by
        simpa using (List.mem_filter.1 (List.mem_eraseDups.1 member)).2
      refine ⟨fun x member => ?_, ?_⟩
      · rw [List.idxOf_cons_self, List.idxOf_cons_ne _ (other member).symm]
        exact Nat.succ_pos _
      · have shorter : (as.filter fun b => !b == a).length < n := by
          rw [← len]
          exact Nat.lt_succ_of_le (List.length_filter_le ..)
        refine (ih _ shorter _ rfl).imp_of_mem fun {x y} hx hy lt => ?_
        rw [List.idxOf_cons_ne _ (other hx).symm, List.idxOf_cons_ne _ (other hy).symm]
        refine Nat.succ_lt_succ (idxOf_lt_of_filter (p := fun b => !b == a) ?_ ?_ lt)
        · simpa using other hx
        · simpa using other hy

theorem nodup_eraseDups (as : List α) : as.eraseDups.Nodup := by
  refine (pairwise_eraseDups as).imp ?_
  rintro x _ lt rfl
  exact Nat.lt_irrefl _ lt

end

/-! ## Rows with the same key -/

namespace Table

variable {κ α : Type} [DecidableEq κ]

theorem get?_putAll_of_new {t : Table κ α} {rows : List (κ × α)}
    (new : ∀ row ∈ rows, t.get? row.1 = none) (k : κ) :
    (t.putAll rows).get? k = (t.get? k).or (find k rows.reverse) := by
  rw [get?_putAll]
  cases last : find k rows.reverse with
  | none => rw [Option.none_or, Option.or_none]
  | some a =>
    have given : k ∈ rows.map Prod.fst := isSome_find_reverse.1 (by rw [last]; rfl)
    obtain ⟨row, listed, rfl⟩ := List.mem_map.1 given
    rw [new row listed, Option.none_or, Option.some_or]

end Table

/-! ## Backends that take several values at once -/

/-- Backends that keep what they are given, of several values under a key the last. -/
structure KeepingMany (σ : Type) [Backend σ] extends Keeping σ where
  live?_setMany_eq : ∀ (b : σ) (values : List (String × String)) (ttl : Option Nat) (k : String)
    {now later : Nat}, now ≤ later →
    breakdowns (Backend.setMany now values ttl b).2 = breakdowns b →
    live? later k (Backend.setMany now values ttl b).2 =
      match Table.find k values.reverse with
      | some data => Stored.live? ⟨data, ttl.map (now + ·)⟩ later
      | none => live? later k b

def Memory.keepingMany : KeepingMany Memory where
  toKeeping := Memory.keeping
  live?_setMany_eq m values ttl k now later _ returned := by
    have reaches : m.reaches now ttl = true := (breakdowns_putMany_eq_iff values).1 returned
    refine (m.live?_putMany now later values ttl k).trans ?_
    rw [if_pos reaches]
    rfl

theorem CacheKey.text_injective : Function.Injective CacheKey.text := by
  rintro ⟨a⟩ ⟨b⟩ same
  exact congrArg CacheKey.mk same

namespace Noted

variable {σ : Type} [Backend σ]

theorem foldl_after_eq (now : Nat) (b : Noted σ) (calls : List CacheCall) :
    calls.foldl (CacheCall.after now) b =
      ⟨calls.foldl (CacheCall.after now) b.backend, b.calls ++ calls⟩ := by
  induction calls generalizing b with
  | nil => simp
  | cons c calls ih => rw [List.foldl_cons, ih, after_eq, List.foldl_cons, List.append_assoc]; rfl

end Noted

/-- What was noted on the way is what was done to the backend inside. -/
theorem Shelf.Leads.backend_eq {σ : Type} [Backend σ] {h : Shelf σ} {h' : Shelf (Noted σ)}
    (led : h.noting.Leads h') :
    h'.backend.backend = h'.backend.calls.foldl (CacheCall.after h.now) h.backend := by
  obtain ⟨-, calls, led⟩ := led
  rw [Noted.foldl_after_eq] at led
  rw [led]
  rfl

/-! ## Looking up in turn -/

/-- A loader that gives values only for keys it is asked for. -/
def GivesAsked {V τ ε : Type} (load : List CacheKey → τ → Except ε (List (CacheKey × V)) × τ) :
    Prop :=
  ∀ missing w loaded, (load missing w).1 = .ok loaded → ∀ kv ∈ loaded, kv.1 ∈ missing

theorem GivesAsked.missed {V τ ε : Type}
    {load : List CacheKey → τ → Except ε (List (CacheKey × V)) × τ} (own : GivesAsked load)
    {asked : List CacheKey} {hit : CacheKey → Option V} {w : τ} {loaded : List (CacheKey × V)}
    (gave : (load (asked.filter fun key => (hit key).isNone) w).1 = .ok loaded) :
    ∀ kv ∈ loaded, kv.1 ∈ asked ∧ hit kv.1 = none := by
  intro kv listed
  have member := own _ w loaded gave kv listed
  rwa [List.mem_filter, Option.isNone_iff_eq_none] at member

/-- A loader that notes what it is asked for. -/
def askedFor {τ α β : Type} (load : α → τ → β × τ) : α → τ × List α → β × τ × List α :=
  fun asked w => ((load asked w.1).1, (load asked w.1).2, w.2 ++ [asked])

namespace Store

variable {V σ τ ε : Type}

def lookUps (keys : List CacheKey) : List CacheCall :=
  keys.map fun key => .get key.text

/-- What storing several values calls the backend for. -/
def stores (s : Store V) (now : Nat) (values : List (CacheKey × V)) : List CacheCall :=
  if values.isEmpty then []
  else [.setMany (values.map fun kv => (kv.1.text, s.write now kv.2)) s.ttl]

/-- How several distinct keys are read with a loader, given what is found under them in the cache:
what comes of it, the calls that are noted, the loader's own and what it was asked for. -/
def ReadsMany (s : Store V) (asked : List CacheKey) (hit : CacheKey → Option V)
    (load : List CacheKey → τ → Except ε (List (CacheKey × V)) × τ) (now : Nat) (w : τ)
    (noted : Except ε (Table CacheKey V) × Shelf (Noted σ) × τ × List (List CacheKey)) : Prop :=
  let missing := asked.filter fun key => (hit key).isNone
  if missing = [] then
    noted.2.1.backend.calls = lookUps asked ∧ noted.2.2 = (w, []) ∧
      ∃ found, noted.1 = .ok found ∧ ∀ key, found.get? key = hit key
  else
    noted.2.2 = ((load missing w).2, [missing]) ∧
      match (load missing w).1 with
      | .error e => noted.2.1.backend.calls = lookUps asked ∧ noted.1 = .error e
      | .ok loaded =>
        noted.2.1.backend.calls = lookUps asked ++ s.stores now loaded ∧
          ∃ found, noted.1 = .ok found ∧
            (∀ key, key ∈ found.keys ↔ (hit key).isSome ∨ key ∈ loaded.map Prod.fst) ∧
            ∀ key, found.get? key = (hit key).or (Table.find key loaded.reverse)

variable [Backend σ]

/-- What is found under a key when these are looked up in turn. -/
def hit? (s : Store V) (now : Nat) : List CacheKey → σ → CacheKey → Option V
  | [], _, _ => none
  | k :: keys, b, key =>
    if key = k then s.found (Backend.get now k.text b).1
    else s.hit? now keys (Backend.get now k.text b).2 key

theorem hit?_of_notMem (s : Store V) (now : Nat) {keys : List CacheKey} {key : CacheKey}
    (other : key ∉ keys) (b : σ) : s.hit? now keys b key = none := by
  induction keys generalizing b with
  | nil => rfl
  | cons k keys ih =>
    rw [List.mem_cons, not_or] at other
    rw [hit?, if_neg other.1]
    exact ih other.2 _

theorem hit?_noted (s : Store V) (now : Nat) (keys : List CacheKey) (b : Noted σ)
    (key : CacheKey) : s.hit? now keys b key = s.hit? now keys b.backend key := by
  induction keys generalizing b with
  | nil => rfl
  | cons k keys ih =>
    rw [hit?, hit?, ih]
    rfl

theorem getEach_eq (s : Store V) {keys : List CacheKey} (nodup : keys.Nodup) (h : Shelf σ) :
    (∀ key, (s.getEach keys h).1.1.get? key = s.hit? h.now keys h.backend key) ∧
      (s.getEach keys h).1.2 =
        keys.filter (fun key => (s.hit? h.now keys h.backend key).isNone) ∧
      (s.getEach keys h).2.now = h.now ∧
      (s.getEach keys h).2.backend =
        (lookUps keys).foldl (CacheCall.after h.now) h.backend := by
  induction keys generalizing h with
  | nil => exact ⟨fun _ => rfl, rfl, rfl, rfl⟩
  | cons key keys ih =>
    rw [List.nodup_cons] at nodup
    obtain ⟨stats, got⟩ := s.get_eq key h
    obtain ⟨values, missing, now, backend⟩ := ih nodup.2 (s.get key h).2
    rw [got] at values missing now backend
    -- the first key is not met again, so the others are found as without it
    have later : ∀ k ∈ keys, s.hit? h.now (key :: keys) h.backend k =
        s.hit? h.now keys (Backend.get h.now key.text h.backend).2 k := by
      intro k member
      have other : k ≠ key := fun same => nodup.1 (same ▸ member)
      rw [hit?, if_neg other]
    have missing : _ = keys.filter fun k => (s.hit? h.now (key :: keys) h.backend k).isNone :=
      missing.trans (List.filter_congr fun k member => by rw [later k member])
    have here : s.hit? h.now (key :: keys) h.backend key =
        s.found (Backend.get h.now key.text h.backend).1 := by
      rw [hit?, if_pos rfl]
    rw [getEach, got]
    cases found : s.found (Backend.get h.now key.text h.backend).1 with
    | some v =>
      rw [found] at here values missing now backend
      refine ⟨fun k => ?_, ?_, now, backend⟩
      · dsimp only
        rw [Table.get?_put, values, hit?, found]
      · rw [List.filter_cons, here]
        exact missing
    | none =>
      rw [found] at here values missing now backend
      refine ⟨fun k => ?_, ?_, now, backend⟩
      · dsimp only
        rw [values, hit?, found]
        by_cases same : k = key
        · rw [if_pos same, same, s.hit?_of_notMem _ nodup.1]
        · rw [if_neg same]
      · rw [List.filter_cons, here]
        exact congrArg (key :: ·) missing

theorem cacheMany_eq (s : Store V) (values : List (CacheKey × V)) (h : Shelf σ) :
    (s.cacheMany values h).backend =
      (s.stores h.now values).foldl (CacheCall.after h.now) h.backend := by
  rw [cacheMany, stores]
  split
  · rfl
  · exact Shelf.backend_countFailure ..

theorem getAllOrLoad_askedFor (s : Store V) (keys : List CacheKey)
    (load : List CacheKey → τ → Except ε (List (CacheKey × V)) × τ) (h : Shelf σ) (w : τ)
    (asked : List (List CacheKey)) :
    let plain := s.getAllOrLoad keys load h w
    let noted := s.getAllOrLoad keys (askedFor load) h (w, asked)
    noted.1 = plain.1 ∧ noted.2.1 = plain.2.1 ∧ noted.2.2.1 = plain.2.2 := by
  simp only [getAllOrLoad]
  split
  · exact ⟨rfl, rfl, rfl⟩
  · simp only [askedFor]
    cases load (s.getEach keys.eraseDups h).1.2 w with
    | mk result w' => cases result <;> exact ⟨rfl, rfl, rfl⟩

theorem readsMany_getAllOrLoad (s : Store V) (keys : List CacheKey)
    {load : List CacheKey → τ → Except ε (List (CacheKey × V)) × τ} (own : GivesAsked load)
    {h : Shelf (Noted σ)} (fresh : h.backend.calls = []) (w : τ) :
    s.ReadsMany keys.eraseDups (s.hit? h.now keys.eraseDups h.backend.backend) load h.now w
      (s.getAllOrLoad keys (askedFor load) h (w, [])) := by
  obtain ⟨values, missing, now, backend⟩ := s.getEach_eq (nodup_eraseDups keys) h
  simp only [hit?_noted, Noted.foldl_after_eq, fresh, List.nil_append] at values missing backend
  simp only [ReadsMany, getAllOrLoad, List.isEmpty_iff, missing]
  split
  · exact ⟨congrArg Noted.calls backend, rfl, _, rfl, values⟩
  · simp only [askedFor, List.nil_append]
    cases gave : (load (keys.eraseDups.filter _) w).1 with
    | error e => exact ⟨rfl, congrArg Noted.calls backend, rfl⟩
    | ok loaded =>
      -- the loader was asked for none of the keys that were found
      have value (key : CacheKey) :
          ((s.getEach keys.eraseDups h).1.1.putAll loaded).get? key =
            (s.hit? h.now keys.eraseDups h.backend.backend key).or
              (Table.find key loaded.reverse) := by
        rw [Table.get?_putAll_of_new fun kv listed => ?_, values]
        rw [values]
        exact (own.missed gave kv listed).2
      refine ⟨rfl, ?_, _, rfl, fun key => ?_, value⟩
      · simp only [cacheMany_eq, Shelf.countLoad, now, backend, Noted.foldl_after_eq]
      · rw [Table.mem_keys_iff, value, Option.isSome_or, Bool.or_eq_true,
          Table.isSome_find_reverse]

/-- Whatever a backend does, several values are read through it by looking each key up once and
loading what is missing then by one call. -/
theorem getAllOrLoad_noted (s : Store V) (keys : List CacheKey)
    {load : List CacheKey → τ → Except ε (List (CacheKey × V)) × τ} (own : GivesAsked load)
    (h : Shelf σ) (w : τ) :
    let noted := s.getAllOrLoad keys (askedFor load) h.noting (w, [])
    s.getAllOrLoad keys load h w = (noted.1, noted.2.1.forget, noted.2.2.1) ∧
      s.ReadsMany keys.eraseDups (s.hit? h.now keys.eraseDups h.backend) load h.now w noted := by
  have forgotten : s.getAllOrLoad keys load h w = _ := s.getAllOrLoad_forget keys load h.noting w
  obtain ⟨result, shelf, rest⟩ := s.getAllOrLoad_askedFor keys load h.noting w []
  rw [← result, ← shelf, ← rest] at forgotten
  have fresh : h.noting.backend.calls = [] := rfl
  exact ⟨forgotten, s.readsMany_getAllOrLoad keys own fresh w⟩

/-! ## Reading again -/

section

variable {s : Store V} {asked : List CacheKey} {hit : CacheKey → Option V}
  {load : List CacheKey → τ → Except ε (List (CacheKey × V)) × τ} {now : Nat} {w : τ}
  {noted : Except ε (Table CacheKey V) × Shelf (Noted σ) × τ × List (List CacheKey)}

omit [Backend σ] in
theorem ReadsMany.of_missing (reads : s.ReadsMany asked hit load now w noted)
    {missing : List CacheKey} (missed : asked.filter (fun key => (hit key).isNone) = missing)
    (some : missing ≠ []) {loaded : List (CacheKey × V)} (gave : (load missing w).1 = .ok loaded) :
    noted.2.2 = ((load missing w).2, [missing]) ∧
      ∃ found, noted.1 = .ok found ∧
        ∀ key, found.get? key = (hit key).or (Table.find key loaded.reverse) := by
  simp only [ReadsMany, missed, if_neg some, gave] at reads
  obtain ⟨loads, -, found, result, -, values⟩ := reads
  exact ⟨loads, found, result, values⟩

omit [Backend σ] in
/-- What is given was found or was written. -/
theorem ReadsMany.ok (reads : s.ReadsMany asked hit load now w noted) (own : GivesAsked load)
    {found : Table CacheKey V} (gave : noted.1 = .ok found) :
    ∃ loaded, noted.2.1.backend.calls = lookUps asked ++ s.stores now loaded ∧
      (∀ kv ∈ loaded, kv.1 ∈ asked ∧ hit kv.1 = none) ∧
      ∀ key, found.get? key = (hit key).or (Table.find key loaded.reverse) := by
  unfold ReadsMany at reads
  dsimp only at reads
  split at reads
  · obtain ⟨calls, -, found', gave', values⟩ := reads
    cases gave.symm.trans gave'
    refine ⟨[], ?_, List.forall_mem_nil _, fun key => ?_⟩
    · rw [calls, stores]
      exact (List.append_nil _).symm
    · rw [values]
      exact (Option.or_none ..).symm
  · obtain ⟨-, reads⟩ := reads
    split at reads
    · cases gave.symm.trans reads.2
    · next loaded given =>
      obtain ⟨calls, found', gave', -, values⟩ := reads
      cases gave.symm.trans gave'
      exact ⟨loaded, calls, own.missed given, values⟩

end

section

variable (keeping : KeepingMany σ) {now later : Nat}

theorem live?_lookUps (keys : List CacheKey) (b : σ) (k : String) (le : now ≤ later) :
    keeping.live? later k ((lookUps keys).foldl (CacheCall.after now) b) =
      keeping.live? later k b := by
  induction keys generalizing b with
  | nil => rfl
  | cons key keys ih => exact (ih _).trans (keeping.live?_get b key.text k le)

theorem breakdowns_lookUps (keys : List CacheKey) (b : σ) :
    keeping.breakdowns ((lookUps keys).foldl (CacheCall.after now) b) = keeping.breakdowns b := by
  induction keys generalizing b with
  | nil => rfl
  | cons key keys ih => exact (ih _).trans (keeping.breakdowns_get b now key.text)

theorem hit?_of_keeping (s : Store V) (keys : List CacheKey) (b : σ) (key : CacheKey) :
    s.hit? now keys b key = if key ∈ keys then
      (keeping.live? now key.text b).bind fun v => s.read v.data else none := by
  induction keys generalizing b with
  | nil => rfl
  | cons k keys ih =>
    rw [hit?, ih, keeping.live?_get b k.text key.text (Nat.le_refl now),
      s.found_of_keeping keeping.toKeeping]
    by_cases here : key = k
    · simp [here]
    · simp [here]

theorem live?_stores (s : Store V) (values : List (CacheKey × V)) (b : σ) (key : CacheKey)
    (le : now ≤ later) (returned :
      keeping.breakdowns ((s.stores now values).foldl (CacheCall.after now) b) =
        keeping.breakdowns b) :
    keeping.live? later key.text ((s.stores now values).foldl (CacheCall.after now) b) =
      match Table.find key values.reverse with
      | some v => Stored.live? ⟨s.write now v, s.ttl.map (now + ·)⟩ later
      | none => keeping.live? later key.text b := by
  rw [stores] at returned ⊢
  split
  · next none =>
    rw [List.isEmpty_iff.1 none]
    rfl
  · next some =>
    rw [if_neg some] at returned
    have written := keeping.live?_setMany_eq b
      (values.map fun kv : CacheKey × V => (kv.1.text, s.write now kv.2)) s.ttl key.text le returned
    rw [← List.map_reverse, Table.find_map CacheKey.text_injective] at written
    refine written.trans ?_
    cases Table.find key values.reverse <;> rfl

/-- As long as a value that can be read has not expired, the same is read. -/
theorem read_of_le {s : Store V} {key : CacheKey} {h : Shelf σ} (le : h.now ≤ later)
    (alive : ((keeping.live? h.now key.text h.backend).bind fun v => s.read v.data).isSome →
      ∀ time, s.lasting keeping.toKeeping key h = some time → later < time) :
    ((keeping.live? later key.text h.backend).bind fun v => s.read v.data) =
      (keeping.live? h.now key.text h.backend).bind fun v => s.read v.data := by
  rw [keeping.live?_of_le _ _ le]
  cases live : keeping.live? h.now key.text h.backend with
  | none => rfl
  | some stored =>
    rw [live, Option.bind_some] at alive
    rw [Option.bind_some, Option.bind_some]
    cases text : s.read stored.data with
    | some v =>
      have alive := alive (by rw [text]; rfl)
      rw [lasting_of_read keeping.toKeeping live text] at alive
      rw [Stored.live?_eq_some alive]
      exact text
    | none =>
      -- it may expire, but cannot be read either way
      cases still : stored.live? later with
      | none => rfl
      | some stored' =>
        rw [← Stored.eq_of_live? still]
        exact text

/-- What was found or loaded is found when the keys are looked up again before it expires, and
nothing else is. -/
theorem hit?_again {s : Store V} {asked : List CacheKey} {h : Shelf σ}
    {loaded : List (CacheKey × V)} {key : CacheKey}
    (undone : ∀ v, Table.find key loaded.reverse = some v → Json.Reads s.decode (s.encode v) v)
    (own : ∀ kv ∈ loaded, kv.1 ∈ asked ∧ s.hit? h.now asked h.backend kv.1 = none)
    (le : h.now ≤ later) (returned : keeping.breakdowns
      ((lookUps asked ++ s.stores h.now loaded).foldl (CacheCall.after h.now) h.backend) =
        keeping.breakdowns h.backend)
    (alive : ((s.hit? h.now asked h.backend key).or (Table.find key loaded.reverse)).isSome →
      ∀ time, s.lasting keeping.toKeeping key h = some time → later < time) :
    s.hit? later asked
        ((lookUps asked ++ s.stores h.now loaded).foldl (CacheCall.after h.now) h.backend) key =
      (s.hit? h.now asked h.backend key).or (Table.find key loaded.reverse) := by
  have own : (Table.find key loaded.reverse).isSome →
      key ∈ asked ∧ s.hit? h.now asked h.backend key = none := by
    rw [Table.isSome_find_reverse]
    intro given
    obtain ⟨kv, listed, rfl⟩ := List.mem_map.1 given
    exact own kv listed
  rw [hit?_of_keeping keeping] at own alive ⊢
  rw [List.foldl_append] at returned ⊢
  rw [hit?_of_keeping keeping, live?_stores keeping _ _ _ _ le
    (returned.trans (breakdowns_lookUps keeping asked h.backend).symm),
    live?_lookUps keeping _ _ _ le]
  -- a value that was written is under a key that had none; what is under others may only expire
  cases last : Table.find key loaded.reverse with
  | some v =>
    rw [last] at own alive
    obtain ⟨member, missed⟩ := own rfl
    rw [if_pos member] at missed
    have alive := alive (by rw [Option.or_some]; rfl)
    rw [lasting_of_unread keeping.toKeeping missed] at alive
    rw [if_pos member, if_pos member, missed, Option.none_or]
    dsimp only
    rw [Stored.live?_eq_some alive, Option.bind_some, s.read_write (undone v last)]
  | none =>
    rw [last, Option.or_none] at alive
    rw [Option.or_none]
    by_cases member : key ∈ asked
    · rw [if_pos member] at alive
      rw [if_pos member, if_pos member]
      exact read_of_le keeping le alive
    · rw [if_neg member, if_neg member]

/-- What a bulk read that succeeds leaves behind. -/
theorem getAllOrLoad_eq_ok {s : Store V} {keys : List CacheKey}
    {load : List CacheKey → τ → Except ε (List (CacheKey × V)) × τ} (own : GivesAsked load)
    {h h' : Shelf σ} {w w' : τ} {found : Table CacheKey V}
    (read : s.getAllOrLoad keys load h w = (.ok found, h', w')) :
    ∃ loaded, h'.now = h.now ∧
      h'.backend = (lookUps keys.eraseDups ++ s.stores h.now loaded).foldl
        (CacheCall.after h.now) h.backend ∧
      (∀ kv ∈ loaded, kv.1 ∈ keys.eraseDups ∧
        s.hit? h.now keys.eraseDups h.backend kv.1 = none) ∧
      ∀ key, found.get? key =
        (s.hit? h.now keys.eraseDups h.backend key).or (Table.find key loaded.reverse) := by
  obtain ⟨forgotten, reads⟩ := s.getAllOrLoad_noted keys own h w
  have led := (s.leads_getAllOrLoad keys (askedFor load) h.noting (w, []) fun _ _ _ _ _ =>
    trivial).leads
  generalize s.getAllOrLoad keys (askedFor load) h.noting (w, []) = noted at forgotten reads led
  rw [read] at forgotten
  obtain ⟨result, rest⟩ := Prod.mk.inj forgotten
  obtain ⟨shelf, -⟩ := Prod.mk.inj rest
  obtain ⟨loaded, calls, given, values⟩ := reads.ok own result.symm
  refine ⟨loaded, (congrArg Shelf.now shelf).trans led.now, ?_, given, values⟩
  rw [← calls, ← led.backend_eq]
  exact congrArg Shelf.backend shelf

end

/-- Whatever a backend does, each distinct key is looked up once, in the order in which the keys
were first named. What is missing then is loaded by one call; if nothing is, there is none. The
values are those that were found and else the last that the loader gave under a key, and what it
gave is written by one call; an error of the loader is returned, and nothing is written. Noting the
calls and what the loader is asked for changes nothing.

On a backend that keeps what it is given, the same keys read again before a value of the first
answer expires are answered with the same values, if the first call did not break down and their
encoding is undone by decoding, and the loader is asked just for the keys that have none. -/
theorem getAllOrLoad_bulk (s : Store V) (keys : List CacheKey) :
    let asked := keys.eraseDups
    (asked.Pairwise (fun key key' => keys.idxOf key < keys.idxOf key') ∧
      ∀ key, key ∈ asked ↔ key ∈ keys) ∧
    (∀ (σ τ ε : Type) [Backend σ]
      (load : List CacheKey → τ → Except ε (List (CacheKey × V)) × τ) (h : Shelf σ) (w : τ),
      GivesAsked load →
      let noted := s.getAllOrLoad keys (askedFor load) h.noting (w, [])
      s.getAllOrLoad keys load h w = (noted.1, noted.2.1.forget, noted.2.2.1) ∧
        s.ReadsMany asked (s.hit? h.now asked h.backend) load h.now w noted) ∧
    ∀ (σ τ ε τ' ε' : Type) [Backend σ] (keeping : KeepingMany σ)
      (load : List CacheKey → τ → Except ε (List (CacheKey × V)) × τ) (h h' : Shelf σ) (w w' : τ)
      (found : Table CacheKey V) (pause : Nat),
      GivesAsked load →
      s.getAllOrLoad keys load h w = (.ok found, h', w') →
      keeping.breakdowns h'.backend = keeping.breakdowns h.backend →
      (∀ key v, found.get? key = some v → Json.Reads s.decode (s.encode v) v) →
      (∀ key, (found.get? key).isSome → ∀ time,
        s.lasting keeping.toKeeping key h = some time → h.now + pause < time) →
      ∀ (load' : List CacheKey → τ' → Except ε' (List (CacheKey × V)) × τ') (w₁ : τ'),
        GivesAsked load' →
        let later : Shelf σ := { h' with now := h'.now + pause }
        let noted := s.getAllOrLoad keys (askedFor load') later.noting (w₁, [])
        s.getAllOrLoad keys load' later w₁ = (noted.1, noted.2.1.forget, noted.2.2.1) ∧
          s.ReadsMany asked found.get? load' (h.now + pause) w₁ noted := by
  intro asked
  refine ⟨⟨pairwise_eraseDups keys, fun key => List.mem_eraseDups⟩,
    fun σ τ ε _ load h w own => s.getAllOrLoad_noted keys own h w, ?_⟩
  intro σ τ ε τ' ε' _ keeping load h h' w w' found pause own read returned undone alive load' w₁
    own' later noted
  obtain ⟨loaded, now, backend, given, values⟩ := getAllOrLoad_eq_ok own read
  obtain ⟨plain, again⟩ := s.getAllOrLoad_noted keys own' later w₁
  refine ⟨plain, ?_⟩
  have found_again : s.hit? later.now asked later.backend = found.get? := by
    funext key
    show s.hit? (h'.now + pause) asked h'.backend key = _
    rw [backend] at returned
    rw [values, now, backend]
    refine hit?_again keeping (fun v last => undone key v ?_) given (Nat.le_add_right ..) returned
      fun some => alive key ?_
    · -- what was loaded under a key had not been found there
      have listed := Table.mem_of_find last
      rw [values, (given _ (List.mem_reverse.1 listed)).2, Option.none_or, last]
    · rw [values]
      exact some
  rw [found_again] at again
  rw [← now]
  exact again

/-- Of four names one is cached and the text of another is no record. The loader gives one of the
other names twice and one not at all; a moment before the names expire it is asked for that one
only. -/
theorem getAllOrLoad_bulk_names :
    let s : Store String := {
      space := "names"
      ttl := some 1000
      timeOfDay := fun _ => .epoch
      encode := .str
      decode := Json.Tree.string }
    let key (id : String) : CacheKey := .ofEntity "league" "name" id
    let names := [(key "1", "Reds"), (key "3", "Greens"), (key "1", "Whites")]
    let load : List CacheKey → Nat → Except String (List (CacheKey × String)) × Nat :=
      fun missing n => (.ok (names.filter fun kv => decide (kv.1 ∈ missing)), n + 1)
    let memory : Memory := Memory.put {} 0 (key "2").text (s.write 0 "Blues") (some 1000)
    let h : Shelf Memory := ⟨0, memory.put 0 (key "3").text "Greens" none, {}, {}⟩
    let keys := [key "1", key "2", key "1", key "3", key "2", key "4"]
    let first := s.getAllOrLoad keys (askedFor load) h.noting (0, [])
    let later := { first.2.1.forget with now := first.2.1.forget.now + 999 }
    let again := s.getAllOrLoad keys (askedFor load) later.noting (0, [])
    let values (found : Table CacheKey String) := keys.eraseDups.map found.get?
    (∀ v, Json.Reads s.decode (s.encode v) v) ∧ GivesAsked load ∧
      first.2.2 = (1, [[key "1", key "3", key "4"]]) ∧ again.2.2 = (1, [[key "4"]]) ∧
      ∃ found found', first.1 = .ok found ∧ again.1 = .ok found' ∧
        values found = [some "Whites", some "Blues", some "Greens", none] ∧
        values found' = values found := by
  intro s key names load memory h keys
  have reads : ∀ v, Json.Reads s.decode (s.encode v) v := Json.reads_string
  have own : GivesAsked load := by
    intro missing n loaded gave kv listed
    cases gave
    exact of_decide_eq_true (List.mem_filter.1 listed).2
  obtain ⟨-, any, kept⟩ := getAllOrLoad_bulk s keys
  obtain ⟨same, looked⟩ := any Memory Nat String load h 0 own
  have returned : Memory.keepingMany.breakdowns
      (s.getAllOrLoad keys (askedFor load) h.noting (0, [])).2.1.forget.backend =
        Memory.keepingMany.breakdowns h.backend := by decide +kernel
  generalize s.getAllOrLoad keys (askedFor load) h.noting (0, []) = first at same looked returned ⊢
  intro first' later
  have missing : keys.eraseDups.filter
      (fun key => (s.hit? h.now keys.eraseDups h.backend key).isNone) =
        [key "1", key "3", key "4"] := by decide +kernel
  have gives : (load [key "1", key "3", key "4"] 0).1 = .ok names := rfl
  obtain ⟨loads, found, gave, value⟩ := looked.of_missing missing (by simp) gives
  have lasting : ∀ key ∈ keys.eraseDups, s.lasting Memory.keeping key h = some 1000 := by
    decide +kernel
  have alive : ∀ key, (found.get? key).isSome → ∀ time,
      s.lasting Memory.keeping key h = some time → h.now + 999 < time := by
    intro key some time ends
    by_cases listed : key ∈ keys.eraseDups
    · cases (lasting key listed).symm.trans ends
      decide
    · have own : ∀ key ∈ names.reverse.map Prod.fst, key ∈ keys.eraseDups := by decide +kernel
      rw [value, s.hit?_of_notMem h.now listed, Option.none_or,
        Table.find_of_notMem fun given => listed (own key given)] at some
      cases some
  rw [gave] at same
  obtain ⟨-, looked⟩ := kept Memory Nat String Nat String Memory.keepingMany load h _ 0 _ found 999
    own same returned (fun _ v _ => reads v) alive load 0 own
  have looked : s.ReadsMany keys.eraseDups found.get? load (h.now + 999) 0
    (s.getAllOrLoad keys (askedFor load) later.noting (0, [])) := looked
  generalize s.getAllOrLoad keys (askedFor load) later.noting (0, []) = again at looked ⊢
  intro again' values
  have value : found.get? = fun key =>
      (s.hit? h.now keys.eraseDups h.backend key).or (Table.find key names.reverse) := funext value
  have absent : keys.eraseDups.filter (fun key => (found.get? key).isNone) = [key "4"] := by
    rw [value]
    decide +kernel
  have gives : (load [key "4"] 0).1 = .ok [] := rfl
  obtain ⟨loads', found', gave', value'⟩ := looked.of_missing absent (by simp) gives
  refine ⟨reads, own, loads, loads', found, found', gave, gave', ?_, ?_⟩
  · show keys.eraseDups.map found.get? = _
    rw [value]
    decide +kernel
  · refine List.map_congr_left fun key _ => ?_
    rw [value', List.reverse_nil, Table.find, Option.or_none]

end Store
end LeagueSync
