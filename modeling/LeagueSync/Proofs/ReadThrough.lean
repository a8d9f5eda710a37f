import LeagueSync.Proofs.CacheCalls
import LeagueSync.Proofs.LiveCache
import LeagueSync.Proofs.RecordText

/-!
# LeagueSync.Proofs.ReadThrough

Reading a value through a cache. A backend that fails, has nothing or has something else than a
value costs a call of the loader and nothing more: the reader gets what the loader gives. On a
backend that keeps what it is given, a value that was read once is read again without the loader
until it expires, is written anew or is dropped.

* `Keeping`: backends that keep what they are given, with `Memory.keeping` for the one in memory.
* `Store.getOrLoad_of_found`, `Store.getOrLoad_of_missing`: reading through any backend.
* `Store.Spares`: what may be done meanwhile; `Store.live?_run`: what was cached stays.
* `Store.getOrLoad_isolates`: what is read, how often the loader is called and what is written, for
  any backend; and what is read later, for one that keeps what it is given.
-/

namespace LeagueSync

/-! ## Backends that keep what they are given -/

/-- How a backend that does not fail keeps each value until it expires, is replaced or is dropped.
What expires later than the times of interest, or has expired and lingers, does not show. A write
may break down instead, and then it changes nothing. -/
structure Keeping (σ : Type) [Backend σ] where
  /-- The value under a key that has not expired at a time. -/
  live? : Nat → String → σ → Option Stored
  /-- How many writes broke down. -/
  breakdowns : σ → Nat
  live?_of_le : ∀ (b : σ) (k : String) {now later : Nat}, now ≤ later →
    live? later k b = (live? now k b).bind (·.live? later)
  get : ∀ (b : σ) (now : Nat) (key : String),
    (Backend.get now key b).1 = .ok ((live? now key b).map Stored.data)
  live?_get : ∀ (b : σ) (key k : String) {now later : Nat}, now ≤ later →
    live? later k (Backend.get now key b).2 = live? later k b
  breakdowns_get : ∀ (b : σ) (now : Nat) (key : String),
    breakdowns (Backend.get now key b).2 = breakdowns b
  live?_set : ∀ (b : σ) (key k data : String) (ttl : Option Nat) {now later : Nat}, now ≤ later →
    live? later k (Backend.set now key data ttl b).2 =
      if k = key ∧ breakdowns (Backend.set now key data ttl b).2 = breakdowns b then
        Stored.live? ⟨data, ttl.map (now + ·)⟩ later
      else live? later k b
  live?_setMany : ∀ (b : σ) (values : List (String × String)) (ttl : Option Nat) {k : String},
    k ∉ values.map Prod.fst → ∀ {now later : Nat}, now ≤ later →
    live? later k (Backend.setMany now values ttl b).2 = live? later k b
  live?_delete : ∀ (b : σ) (key k : String) (later : Nat),
    live? later k (Backend.delete key b).2 = if k = key then none else live? later k b

def Memory.keeping : Keeping Memory where
  live? now k m := m.live? now k
  breakdowns := Memory.breakdowns
  live?_of_le m k _ _ le := m.live?_of_le k le
  get m now key := by rw [← lookup_eq_live?, ← get_lookup]; rfl
  live?_get m key k _ _ le := m.live?_get key k le
  breakdowns_get m now key := m.breakdowns_get now key
  live?_set m key k data ttl now later _ := by
    refine (m.live?_put now later key k data ttl).trans ?_
    simp only [← breakdowns_putMany_eq_iff [(key, data)]]
    rfl
  live?_setMany m values ttl k other now later _ := m.live?_putMany_of_notMem other now later ttl
  live?_delete m key k later := m.live?_delete later key k

namespace Keeping

variable {σ : Type} [Backend σ] (keeping : Keeping σ) {now later : Nat} (le : now ≤ later)
include le

theorem live?_of_later {b : σ} {k : String} {v : Stored} (live : keeping.live? later k b = some v) :
    keeping.live? now k b = some v := by
  rw [keeping.live?_of_le b k le] at live
  obtain ⟨v', before, alive⟩ := Option.bind_eq_some_iff.1 live
  rw [before, Stored.eq_of_live? alive]

/-- A call that writes nothing under a key and does not drop it does not show there. -/
theorem live?_after {c : CacheCall} {k : String} (other : ¬ c.Changes k) (b : σ) :
    keeping.live? later k (c.after now b) = keeping.live? later k b := by
  cases c with
  | get key => exact keeping.live?_get b key k le
  | set key data ttl =>
    have differs : k ≠ key := fun same => other (.inl same.symm)
    rw [CacheCall.after, keeping.live?_set b key k data ttl le, if_neg fun both => differs both.1]
  | setMany values ttl =>
    exact keeping.live?_setMany b values ttl (fun same => other (.inl same)) le
  | delete key =>
    have differs : k ≠ key := fun same => other (.inr (same ▸ rfl))
    rw [CacheCall.after, keeping.live?_delete, if_neg differs]

/-- A call that writes nothing under a key does not bring a value there. -/
theorem live?_after_none {c : CacheCall} {k : String} (unwritten : ¬ c.Writes k) {b : σ}
    (gone : keeping.live? later k b = none) : keeping.live? later k (c.after now b) = none := by
  by_cases dropped : c = .delete k
  · rw [dropped, CacheCall.after, keeping.live?_delete, if_pos rfl]
  · rw [keeping.live?_after le (not_or.2 ⟨unwritten, dropped⟩), gone]

end Keeping

/-! ## Reading through -/

def counted {τ α : Type} (load : τ → α × τ) : τ × Nat → α × τ × Nat :=
  fun w => ((load w.1).1, (load w.1).2, w.2 + 1)

namespace Store

variable {V σ τ ε : Type} [Backend σ] {s : Store V} {key : CacheKey} {h : Shelf σ}
  {load : τ → Except ε V × τ}

theorem getOrLoad_of_found {v : V}
    (found : s.found (Backend.get h.now key.text h.backend).1 = some v)
    (load : τ → Except ε V × τ) (w : τ) :
    ∃ stats metrics, s.getOrLoad key load h w = (.ok v, {
      now := h.now
      backend := (Backend.get h.now key.text h.backend).2
      stats
      metrics }, w) := by
  obtain ⟨stats, got⟩ := s.get_eq key h
  rw [getOrLoad, got, found]
  exact ⟨_, _, rfl⟩

theorem getOrLoad_of_missing
    (missing : s.found (Backend.get h.now key.text h.backend).1 = none)
    (load : τ → Except ε V × τ) (w : τ) :
    ∃ stats metrics, s.getOrLoad key load h w = ((load w).1, {
      now := h.now
      backend :=
        let b := (Backend.get h.now key.text h.backend).2
        match (load w).1 with
        | .ok v => (Backend.set h.now key.text (s.write h.now v) s.ttl b).2
        | .error _ => b
      stats
      metrics }, (load w).2) := by
  obtain ⟨stats, got⟩ := s.get_eq key h
  rw [getOrLoad, got, missing]
  cases loaded : load w with
  | mk result w' =>
    cases result with
    | error e => exact ⟨_, _, rfl⟩
    | ok v =>
      obtain ⟨stats, wrote⟩ := s.writeThrough_eq key v (Shelf.countLoad {
        now := h.now
        backend := (Backend.get h.now key.text h.backend).2
        stats
        metrics := h.metrics.addCacheMiss s.space })
      exact ⟨_, _, congrArg (fun h' => (Except.ok v, h', w')) wrote⟩

theorem getOrLoad_counted (s : Store V) (key : CacheKey) (load : τ → Except ε V × τ) (h : Shelf σ)
    (w : τ) (n : Nat) :
    let plain := s.getOrLoad key load h w
    let counting := s.getOrLoad key (counted load) h (w, n)
    counting.1 = plain.1 ∧ counting.2.1 = plain.2.1 ∧ counting.2.2.1 = plain.2.2 := by
  intro plain counting
  have seen : plain = (counting.1, counting.2.1, counting.2.2.1) :=
    s.getOrLoad_seen .all Prod.fst key (counted load) load (fun _ => rfl) h (w, n)
  rw [seen]
  exact ⟨rfl, rfl, rfl⟩

/-- Reading through calls the backend for a value, and with a value that the loader gave once more
to store it. -/
theorem getOrLoad_noted (s : Store V) (key : CacheKey) (load : τ → Except ε V × τ) (h : Shelf σ)
    (w : τ) :
    let noted := s.getOrLoad key (counted load) h.noting (w, 0)
    s.getOrLoad key load h w = (noted.1, noted.2.1.forget, noted.2.2.1) ∧
      match s.found (Backend.get h.now key.text h.backend).1 with
      | some v =>
        noted.1 = .ok v ∧ noted.2.2 = (w, 0) ∧ noted.2.1.backend.calls = [.get key.text]
      | none =>
        noted.1 = (load w).1 ∧ noted.2.2 = ((load w).2, 1) ∧
          noted.2.1.backend.calls = .get key.text :: match (load w).1 with
            | .ok v => [.set key.text (s.write h.now v) s.ttl]
            | .error _ => [] := by
  intro noted
  have forgotten : s.getOrLoad key (counted load) h (w, 0) =
      (noted.1, noted.2.1.forget, noted.2.2) := s.getOrLoad_forget key _ h.noting _
  obtain ⟨result, shelf, rest⟩ := s.getOrLoad_counted key load h w 0
  rw [forgotten] at result shelf rest
  refine ⟨Prod.ext result.symm (Prod.ext shelf.symm rest.symm), ?_⟩
  have answer : (Backend.get h.noting.now key.text h.noting.backend).1 =
      (Backend.get h.now key.text h.backend).1 := rfl
  cases found : s.found (Backend.get h.now key.text h.backend).1 with
  | some v =>
    obtain ⟨stats, metrics, read⟩ :=
      getOrLoad_of_found ((congrArg s.found answer).trans found) (counted load) (w, 0)
    have read : noted = _ := read
    rw [read]
    exact ⟨rfl, rfl, rfl⟩
  | none =>
    obtain ⟨stats, metrics, read⟩ :=
      getOrLoad_of_missing ((congrArg s.found answer).trans found) (counted load) (w, 0)
    have read : noted = _ := read
    rw [read]
    refine ⟨rfl, rfl, ?_⟩
    simp only [counted]
    cases (load w).1 <;> rfl

/-! ## Reading again -/

/-- The moment from which a value that is read through is not cached any more: the moment at which
the one that is found expires, or a lifetime from now if it has to be loaded. -/
def lasting (s : Store V) (keeping : Keeping σ) (key : CacheKey) (h : Shelf σ) : Option Nat :=
  match (keeping.live? h.now key.text h.backend).filter fun v => (s.read v.data).isSome with
  | some v => v.expiresAt
  | none => s.ttl.map (h.now + ·)

/-- Whether nothing that is done writes under a key or drops it. Reading through the key may be
among what is done, even with a loader that gives another value. -/
def Spares {α : Type} (s : Store V) (key : CacheKey) : Shelf σ → List (StoreStep α V) → Prop
  | _, [] => True
  | h, c :: cs =>
    ((∃ loaded, c = .getOrLoad key loaded) ∨ ∀ call ∈ s.callsOf h [c], ¬ call.Changes key.text) ∧
      s.Spares key (s.step h c) cs

variable (keeping : Keeping σ)

theorem found_of_keeping (s : Store V) (b : σ) (now : Nat) (key : String) :
    s.found (Backend.get now key b).1 = (keeping.live? now key b).bind fun v => s.read v.data := by
  rw [keeping.get]
  cases keeping.live? now key b <;> rfl

theorem lasting_of_read {stored : Stored} {v : V}
    (live : keeping.live? h.now key.text h.backend = some stored)
    (text : s.read stored.data = some v) : s.lasting keeping key h = stored.expiresAt := by
  rw [lasting, live, Option.filter_some, if_pos (by rw [text]; rfl)]

theorem lasting_of_unread
    (unread : ((keeping.live? h.now key.text h.backend).bind fun v => s.read v.data) = none) :
    s.lasting keeping key h = s.ttl.map (h.now + ·) := by
  have none : (keeping.live? h.now key.text h.backend).filter
      (fun v => (s.read v.data).isSome) = none := by
    rw [Option.filter_eq_none_iff]
    intro stored live
    rw [live, Option.bind_some] at unread
    rw [unread]
    exact Bool.false_ne_true
  rw [lasting, none]

/-- What was read through is cached until it expires. -/
theorem live?_of_getOrLoad {w w' : τ} {v : V} (undone : Json.Reads s.decode (s.encode v) v)
    {h' : Shelf σ} (read : s.getOrLoad key load h w = (.ok v, h', w'))
    (returned : keeping.breakdowns h'.backend = keeping.breakdowns h.backend) {later : Nat}
    (le : h.now ≤ later) (alive : ∀ time, s.lasting keeping key h = some time → later < time) :
    ∃ stored, keeping.live? later key.text h'.backend = some stored ∧
      s.read stored.data = some v := by
  have looked := s.found_of_keeping keeping h.backend h.now key.text
  cases found : s.found (Backend.get h.now key.text h.backend).1 with
  | some v' =>
    obtain ⟨stats, metrics, same⟩ := getOrLoad_of_found found load w
    cases read.symm.trans same
    obtain ⟨stored, live, text⟩ := Option.bind_eq_some_iff.1 (looked.symm.trans found)
    rw [lasting_of_read keeping live text] at alive
    refine ⟨stored, ?_, text⟩
    rw [keeping.live?_get _ _ _ le, keeping.live?_of_le _ _ le, live, Option.bind_some,
      Stored.live?_eq_some alive]
  | none =>
    obtain ⟨stats, metrics, same⟩ := getOrLoad_of_missing found load w
    -- what is there cannot be read, so the lifetime counts from now
    rw [lasting_of_unread keeping (looked.symm.trans found)] at alive
    rw [read] at same
    obtain ⟨result, same⟩ := Prod.mk.inj same
    obtain ⟨same, -⟩ := Prod.mk.inj same
    rw [same] at returned ⊢
    simp only [← result] at returned ⊢
    rw [← keeping.breakdowns_get h.backend h.now key.text] at returned
    refine ⟨⟨s.write h.now v, s.ttl.map (h.now + ·)⟩, ?_, s.read_write undone h.now⟩
    rw [keeping.live?_set _ _ _ _ _ le, if_pos ⟨rfl, returned⟩, Stored.live?_eq_some alive]

/-- A value that can be read and will not have expired at a moment is still there at that moment,
because reading through the key in between finds it and so does not write. -/
theorem live?_run {last : Nat} {stored : Stored} {v : V} (text : s.read stored.data = some v)
    {α : Type} {steps : List (StoreStep α V)} (spares : s.Spares key h steps)
    (inTime : (s.run h steps).now ≤ last)
    (live : keeping.live? last key.text h.backend = some stored) :
    keeping.live? last key.text (s.run h steps).backend = some stored := by
  induction steps generalizing h with
  | nil => exact live
  | cons c steps ih =>
    obtain ⟨spared, rest⟩ := spares
    have soon : (s.step h c).now ≤ last := Nat.le_trans (s.now_le_run _ steps) inTime
    refine ih rest inTime ?_
    rcases spared with ⟨loaded, rfl⟩ | spared
    · have now : h.now ≤ last := Nat.le_trans (s.now_le_step h _) soon
      have found := s.found_of_keeping keeping h.backend h.now key.text
      rw [keeping.live?_of_later now live, Option.bind_some, text] at found
      obtain ⟨stats, metrics, same⟩ := getOrLoad_of_found found (fun () => (loaded, ())) ()
      rw [step, same]
      exact (keeping.live?_get _ _ _ now).trans live
    · have kept := s.run_of_callsOf (P := fun b => keeping.live? last key.text b = some stored)
        (fun time le call other b holds =>
          (keeping.live?_after (Nat.le_trans le soon) other b).trans holds) spared live
      exact kept

/-- A value that was read through is read again without the loader, until it expires or is written
or dropped. -/
theorem getOrLoad_again {w w' : τ} {v : V} (undone : Json.Reads s.decode (s.encode v) v)
    {h' : Shelf σ} (read : s.getOrLoad key load h w = (.ok v, h', w'))
    (returned : keeping.breakdowns h'.backend = keeping.breakdowns h.backend) {α : Type}
    {steps : List (StoreStep α V)} (spares : s.Spares key h' steps)
    (alive : ∀ time, s.lasting keeping key h = some time → (s.run h' steps).now < time)
    {τ' ε' : Type} (load' : τ' → Except ε' V × τ') (w₁ : τ') :
    ∃ shelf, s.getOrLoad key load' (s.run h' steps) w₁ = (.ok v, shelf, w₁) := by
  have now : h.now ≤ (s.run h' steps).now := by
    have led : h.Leads (s.getOrLoad key load h w).2.1 := (s.leads_getOrLoad trivial load h w).leads
    rw [read] at led
    rw [← led.now]
    exact s.now_le_run h' steps
  obtain ⟨stored, live, text⟩ := live?_of_getOrLoad keeping undone read returned now alive
  have still := live?_run keeping text spares (Nat.le_refl _) live
  have found := s.found_of_keeping keeping (s.run h' steps).backend (s.run h' steps).now key.text
  rw [still, Option.bind_some, text] at found
  obtain ⟨stats, metrics, same⟩ := getOrLoad_of_found found load' w₁
  exact ⟨_, same⟩

include keeping in
/-- A value that was dropped is loaded when it is read next, if it was not written before. -/
theorem getOrLoad_invalidate (s : Store V) (key : CacheKey) (h : Shelf σ) {α : Type}
    {steps : List (StoreStep α V)}
    (unwritten : ∀ c ∈ s.callsOf (h.invalidate key).2 steps, ¬ c.Writes key.text)
    (load : τ → Except ε V × τ) (w : τ) :
    ∃ shelf, s.getOrLoad key load (s.run (h.invalidate key).2 steps) w =
      ((load w).1, shelf, (load w).2) := by
  have dropped (later : Nat) :
      keeping.live? later key.text (h.invalidate key).2.backend = none := by
    rw [Shelf.invalidate, Shelf.backend_countFailure, keeping.live?_delete, if_pos rfl]
  have still := s.run_of_callsOf
    (P := fun b => keeping.live? (s.run (h.invalidate key).2 steps).now key.text b = none)
    (fun time le c other b gone => keeping.live?_after_none le other gone) unwritten (dropped _)
  have missing := s.found_of_keeping keeping (s.run (h.invalidate key).2 steps).backend
    (s.run (h.invalidate key).2 steps).now key.text
  rw [still, Option.bind_none] at missing
  obtain ⟨stats, metrics, same⟩ := getOrLoad_of_missing missing load w
  exact ⟨_, same⟩

/-- Whatever a backend does, a value is read through it as it was found there, without the loader,
or just as the loader gives it, which is called once then; what it gave is written once, whether or
not that succeeds, and nothing else is. Noting the calls and counting the loads changes nothing.

On a backend that keeps what it is given, a value that was read through by a call that did not break
down, and whose encoding is undone by decoding, is read again without the loader until it expires or
is written or dropped, whatever else is done in between, and one that was dropped is loaded. -/
theorem getOrLoad_isolates (s : Store V) (key : CacheKey) :
    (∀ (σ τ ε : Type) [Backend σ] (load : τ → Except ε V × τ) (h : Shelf σ) (w : τ),
      let noted := s.getOrLoad key (counted load) h.noting (w, 0)
      s.getOrLoad key load h w = (noted.1, noted.2.1.forget, noted.2.2.1) ∧
        match s.found (Backend.get h.now key.text h.backend).1 with
        | some v =>
          noted.1 = .ok v ∧ noted.2.2 = (w, 0) ∧ noted.2.1.backend.calls = [.get key.text]
        | none =>
          noted.1 = (load w).1 ∧ noted.2.2 = ((load w).2, 1) ∧
            noted.2.1.backend.calls = .get key.text :: match (load w).1 with
              | .ok v => [.set key.text (s.write h.now v) s.ttl]
              | .error _ => []) ∧
    (∀ (σ τ ε τ' ε' α : Type) [Backend σ] (keeping : Keeping σ) (load : τ → Except ε V × τ)
      (h h' : Shelf σ) (w w' : τ) (v : V) (steps : List (StoreStep α V)),
      s.getOrLoad key load h w = (.ok v, h', w') →
      keeping.breakdowns h'.backend = keeping.breakdowns h.backend →
      Json.Reads s.decode (s.encode v) v →
      s.Spares key h' steps →
      (∀ time, s.lasting keeping key h = some time → (s.run h' steps).now < time) →
      ∀ (load' : τ' → Except ε' V × τ') (w₁ : τ'),
        ∃ shelf, s.getOrLoad key load' (s.run h' steps) w₁ = (.ok v, shelf, w₁)) ∧
    ∀ (σ τ ε α : Type) [Backend σ], Keeping σ → ∀ (h : Shelf σ) (steps : List (StoreStep α V)),
      (∀ c ∈ s.callsOf (h.invalidate key).2 steps, ¬ c.Writes key.text) →
      ∀ (load : τ → Except ε V × τ) (w : τ),
        ∃ shelf, s.getOrLoad key load (s.run (h.invalidate key).2 steps) w =
          ((load w).1, shelf, (load w).2) := by
  refine ⟨fun σ τ ε _ load h w => s.getOrLoad_noted key load h w, ?_, ?_⟩
  · intro σ τ ε τ' ε' α _ keeping load h h' w w' v steps read returned undone spares alive
    exact getOrLoad_again keeping undone read returned spares alive
  · intro σ τ ε α _ keeping h steps unwritten load w
    exact s.getOrLoad_invalidate keeping key h unwritten load w

/-- A backend of which every call fails shows only in that the loader is called. In memory a name is
read again a moment before it expires, after it was read through with another loader and another
name was dropped, and is loaded once it was dropped itself. -/
theorem getOrLoad_isolates_names :
    let s : Store String := {
      space := "names"
      ttl := some 1000
      timeOfDay := fun _ => .epoch
      encode := .str
      decode := Json.Tree.string }
    let key : CacheKey := .ofEntity "league" "name" "7"
    let load (name : String) : Nat → Except String String × Nat := fun n => (.ok name, n + 1)
    let broken : Shelf (Flaky Memory) := {
      now := 0
      backend := ⟨{}, fun _ => some (.backend "down")⟩ }
    let first := s.getOrLoad key (load "Reds") ⟨0, ({} : Memory), {}, {}⟩ 0
    let steps : List (StoreStep String String) :=
      [.getOrLoad key (.ok "Greens"), .wait 999, .invalidate (.ofEntity "league" "name" "8")]
    let later := s.run first.2.1 steps
    let again := s.getOrLoad key (load "Blues") later 0
    let next := s.getOrLoad key (load "Blues") (later.invalidate key).2 0
    Json.Reads s.decode (s.encode "Reds") "Reds" ∧
      (s.getOrLoad key (load "Reds") broken 0).1 = .ok "Reds" ∧
      (s.getOrLoad key (load "Reds") broken 0).2.2 = 1 ∧
      again.1 = .ok "Reds" ∧ again.2.2 = 0 ∧ next.1 = .ok "Blues" ∧ next.2.2 = 1 := by
  intro s key load broken first steps later again next
  have undone : Json.Reads s.decode (s.encode "Reds") "Reds" := Json.reads_string "Reds"
  obtain ⟨isolates, kept, dropped⟩ := getOrLoad_isolates s key
  have down := isolates (Flaky Memory) Nat String (load "Reds") broken 0
  have up := isolates Memory Nat String (load "Reds") ⟨0, {}, {}, {}⟩ 0
  have found : s.found (Backend.get broken.now key.text broken.backend).1 = none := rfl
  rw [found] at down
  obtain ⟨same, result, loads, -⟩ := down
  have read : first = (.ok "Reds", first.2.1, first.2.2) := by
    have found : s.found (Backend.get 0 key.text ({} : Memory)).1 = none := rfl
    rw [found] at up
    obtain ⟨same, result, -⟩ := up
    exact Prod.ext ((congrArg Prod.fst same).trans result) rfl
  have returned : Memory.keeping.breakdowns first.2.1.backend = Memory.keeping.breakdowns {} := by
    decide +kernel
  have spares : s.Spares key first.2.1 steps := by
    refine ⟨.inl ⟨_, rfl⟩, .inr fun call made => ?_, .inr fun call made => ?_, trivial⟩
    · cases made
    · rw [List.mem_singleton.1 made]
      simp [CacheCall.Changes, CacheCall.Writes, key, CacheKey.ofEntity]
  have soon : s.lasting Memory.keeping key ⟨0, {}, {}, {}⟩ = some 1000 := rfl
  have now : later.now = 999 := by decide +kernel
  have alive : ∀ time, s.lasting Memory.keeping key ⟨0, {}, {}, {}⟩ = some time →
      later.now < time := by
    intro time ends
    cases soon.symm.trans ends
    omega
  obtain ⟨shelf, read⟩ := kept Memory Nat String Nat String String Memory.keeping (load "Reds")
    ⟨0, {}, {}, {}⟩ first.2.1 0 first.2.2 "Reds" steps read returned undone spares alive
    (load "Blues") 0
  have read : again = (.ok "Reds", shelf, 0) := read
  have none : ∀ c ∈ s.callsOf (later.invalidate key).2 ([] : List (StoreStep String String)),
      ¬ c.Writes key.text := by
    intro c made
    cases made
  obtain ⟨shelf', loaded⟩ := dropped Memory Nat String String Memory.keeping later [] none
    (load "Blues") 0
  have loaded : next = (.ok "Blues", shelf', 1) := loaded
  rw [same, read, loaded]
  exact ⟨undone, result, congrArg Prod.fst loads, rfl, rfl, rfl, rfl⟩

end Store
end LeagueSync
