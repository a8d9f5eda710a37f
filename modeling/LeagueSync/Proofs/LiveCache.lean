import LeagueSync.Proofs.CacheCalls

/-!
# LeagueSync.Proofs.LiveCache

What a cache in memory still has at a time: under each key the value together with its moment of
expiry, unless that moment has come. Expired values that linger do not show here, so a look-up and a
sweep change nothing, nor does a write that breaks down, and every other operation changes it as one
expects of a map.

* `Memory.live?_of_le`: as time passes, values only expire.
* `Memory.live?_get`, `Memory.live?_purgeExpired`: dropping expired values does not show.
* `Memory.breakdowns_putMany_eq_iff`: which writes break down.
* `Memory.live?_put`, `Memory.live?_putMany_eq`, `Memory.live?_delete`: writing and dropping.
* `Memory.horizon_after`, `Shelf.Leads.breakdowns_le`: what holds of each call of a store.
-/

namespace LeagueSync

namespace Table

variable {κ α : Type} [DecidableEq κ]

theorem find_of_notMem {k : κ} {rows : List (κ × α)} (other : k ∉ rows.map Prod.fst) :
    find k rows = none := by
  rw [← isSome_find] at other
  exact Option.not_isSome_iff_eq_none.1 other

theorem find_keep (p : α → Bool) (k : κ) {rows : List (κ × α)} (nodup : (rows.map Prod.fst).Nodup) :
    find k (rows.filter (p ·.2)) = (find k rows).filter p := by
  induction rows with
  | nil => rfl
  | cons row rows ih =>
    obtain ⟨k', a⟩ := row
    rw [List.map_cons, List.nodup_cons] at nodup
    by_cases here : k' = k
    · subst here
      have later : find k' rows = none := find_of_notMem nodup.1
      cases passes : p a <;> simp [passes, find, ih nodup.2, later, Option.filter]
    · cases passes : p a <;> simp [passes, find, here, ih nodup.2]

theorem find_map {κ' β : Type} [DecidableEq κ'] {f : κ → κ'} (inj : f.Injective)
    (g : α → β) (k : κ) (rows : List (κ × α)) :
    find (f k) (rows.map fun row => (f row.1, g row.2)) = (find k rows).map g := by
  induction rows with
  | nil => rfl
  | cons row rows ih =>
    obtain ⟨k', a⟩ := row
    by_cases here : k' = k
    · simp [find, here]
    · simp [find, here, inj.ne here, ih]

/-- If all that is written under a key shows as the same, that is what shows, else what did. -/
theorem get?_putAll_eq {β : Type} (show? : Option α → β) {b : β} {t : Table κ α}
    {rows : List (κ × α)} {k : κ} (written : ∀ a, (k, a) ∈ rows → show? (some a) = b)
    (before : k ∉ rows.map Prod.fst → show? (t.get? k) = b) :
    show? ((t.putAll rows).get? k) = b := by
  rw [get?_putAll]
  cases last : find k rows.reverse with
  | some a => exact written a (List.mem_reverse.1 (mem_of_find last))
  | none =>
    rw [Option.none_or]
    refine before fun member => ?_
    rw [← isSome_find_reverse, last] at member
    cases member

theorem get?_keep (t : Table κ α) (p : α → Bool) (k : κ) :
    (t.keep p).get? k = (t.get? k).filter p :=
  find_keep p k t.nodup

end Table

/-- The value, unless it has expired. -/
def Stored.live? (v : Stored) (now : Nat) : Option Stored :=
  if v.isExpired now then none else some v

theorem Stored.isExpired_of_le {v : Stored} {now later : Nat} (le : now ≤ later)
    (expired : v.isExpired now = true) : v.isExpired later = true := by
  unfold isExpired at *
  cases time : v.expiresAt with
  | none => simp [time] at expired
  | some time =>
    simp only [time, decide_eq_true_eq] at expired ⊢
    omega

theorem Stored.live?_eq_some {v : Stored} {now : Nat}
    (alive : ∀ time, v.expiresAt = some time → now < time) : v.live? now = some v := by
  rw [live?, isExpired]
  cases ends : v.expiresAt with
  | none => rfl
  | some time => simp [alive time ends]

theorem Stored.eq_of_live? {v v' : Stored} {now : Nat} (alive : v.live? now = some v') :
    v = v' := by
  rw [live?] at alive
  split at alive
  · cases alive
  · exact Option.some.inj alive

theorem Stored.live?_of_le (v : Stored) {now later : Nat} (le : now ≤ later) :
    v.live? later = (v.live? now).bind (·.live? later) := by
  by_cases expired : v.isExpired now
  · simp [live?, expired, isExpired_of_le le expired]
  · simp [live?, expired]

namespace Memory

def live? (m : Memory) (now : Nat) (key : String) : Option Stored :=
  (m.items.get? key).bind (·.live? now)

theorem lookup_eq_live? (m : Memory) (now : Nat) (key : String) :
    m.lookup now key = (m.live? now key).map Stored.data := by
  rw [lookup, live?]
  cases m.items.get? key with
  | none => rfl
  | some v => by_cases expired : v.isExpired now <;> simp [Stored.live?, expired]

@[simp] theorem breakdowns_get (m : Memory) (now : Nat) (key : String) :
    (m.get now key).2.breakdowns = m.breakdowns := by
  rw [get]
  split
  · split <;> rfl
  · rfl

@[simp] theorem horizon_get (m : Memory) (now : Nat) (key : String) :
    (m.get now key).2.horizon = m.horizon := by
  rw [get]
  split
  · split <;> rfl
  · rfl

theorem live?_of_le (m : Memory) (key : String) {now later : Nat} (le : now ≤ later) :
    m.live? later key = (m.live? now key).bind (·.live? later) := by
  rw [live?, live?, Option.bind_assoc]
  exact Option.bind_congr fun v _ => v.live?_of_le le

theorem live?_get (m : Memory) (key k : String) {now later : Nat} (le : now ≤ later) :
    (m.get now key).2.live? later k = m.live? later k := by
  rw [get]
  cases found : m.items.get? key with
  | none => rfl
  | some v =>
    by_cases expired : v.isExpired now
    · simp only [expired, if_true, live?, Table.get?_erase]
      by_cases here : k = key
      · simp [here, found, Stored.live?, Stored.isExpired_of_le le expired]
      · simp [here]
    · simp [expired, live?]

section

variable {m : Memory} {now : Nat} {ttl : Option Nat}

theorem reaches_congr {m' : Memory} (clock : m.horizon = m'.horizon) :
    m.reaches now ttl = m'.reaches now ttl := by
  cases ttl with
  | none => rfl
  | some lifetime => rw [reaches, reaches, clock]

theorem put_eq_putMany (m : Memory) (now : Nat) (key data : String) (ttl : Option Nat) :
    m.put now key data ttl = m.putMany now [(key, data)] ttl := rfl

@[simp] theorem horizon_putMany (m : Memory) (now : Nat) (values : List (String × String))
    (ttl : Option Nat) : (m.putMany now values ttl).horizon = m.horizon := by
  rw [putMany]
  split <;> rfl

theorem putMany_of_reaches (reaches : m.reaches now ttl = true) (values : List (String × String)) :
    m.putMany now values ttl = { m with
      items := m.items.putAll (values.map fun v => (v.1, ⟨v.2, ttl.map (now + ·)⟩)) } :=
  if_pos reaches

theorem putMany_of_not_reaches (breaks : m.reaches now ttl = false)
    (values : List (String × String)) :
    m.putMany now values ttl = { m with breakdowns := m.breakdowns + 1 } :=
  if_neg (Bool.eq_false_iff.1 breaks)

/-- A write does not break down just if the clock reaches the moment of expiry. -/
theorem breakdowns_putMany_eq_iff (values : List (String × String)) :
    (m.putMany now values ttl).breakdowns = m.breakdowns ↔ m.reaches now ttl = true := by
  cases reaches : m.reaches now ttl with
  | true => rw [putMany_of_reaches reaches, iff_true_intro rfl, iff_true_intro rfl]
  | false => simp [putMany_of_not_reaches reaches]

theorem breakdowns_le_putMany (m : Memory) (now : Nat) (values : List (String × String))
    (ttl : Option Nat) : m.breakdowns ≤ (m.putMany now values ttl).breakdowns := by
  rw [putMany]
  split
  · exact Nat.le_refl _
  · exact Nat.le_succ _

theorem live?_put (m : Memory) (now later : Nat) (key k data : String) (ttl : Option Nat) :
    (m.put now key data ttl).live? later k =
      if k = key ∧ m.reaches now ttl = true then Stored.live? ⟨data, ttl.map (now + ·)⟩ later
      else m.live? later k := by
  rw [put]
  by_cases reaches : m.reaches now ttl = true
  · rw [if_pos reaches]
    by_cases here : k = key <;> simp [live?, Table.get?_put, here, reaches]
  · rw [if_neg reaches, if_neg fun both => reaches both.2]
    rfl

/-- Several values are written as one after another, unless the write breaks down. -/
theorem putMany_eq_foldl (reaches : m.reaches now ttl = true) (values : List (String × String)) :
    m.putMany now values ttl = values.foldl (fun m v => m.put now v.1 v.2 ttl) m := by
  induction values generalizing m with
  | nil => exact putMany_of_reaches reaches []
  | cons v values ih =>
    have first := putMany_of_reaches reaches [v]
    have clock : (m.put now v.1 v.2 ttl).horizon = m.horizon := m.horizon_putMany now [v] ttl
    have reaches' : (m.put now v.1 v.2 ttl).reaches now ttl = true :=
      (reaches_congr clock).trans reaches
    rw [List.foldl_cons, ← ih reaches', putMany_of_reaches reaches, putMany_of_reaches reaches',
      put_eq_putMany, first]
    rfl

end

theorem live?_putMany_eq {m : Memory} {now later : Nat} {values : List (String × String)}
    {ttl : Option Nat} {k : String} {v? : Option Stored} (reaches : m.reaches now ttl = true)
    (written : ∀ data, (k, data) ∈ values → Stored.live? ⟨data, ttl.map (now + ·)⟩ later = v?)
    (before : k ∉ values.map Prod.fst → m.live? later k = v?) :
    (m.putMany now values ttl).live? later k = v? := by
  rw [putMany_of_reaches reaches]
  refine Table.get?_putAll_eq (fun v : Option Stored => v.bind (·.live? later))
    (fun v member => ?_) fun other => before ?_
  · obtain ⟨kv, listed, same⟩ := List.mem_map.1 member
    obtain ⟨rfl, rfl⟩ := Prod.mk.inj same
    exact written kv.2 listed
  · rwa [List.map_map] at other

/-- Of several values that are written under a key the last one stays. -/
theorem live?_putMany (m : Memory) (now later : Nat) (values : List (String × String))
    (ttl : Option Nat) (k : String) : (m.putMany now values ttl).live? later k =
      match if m.reaches now ttl then Table.find k values.reverse else none with
      | some data => Stored.live? ⟨data, ttl.map (now + ·)⟩ later
      | none => m.live? later k := by
  cases reaches : m.reaches now ttl with
  | true =>
    let stored (data : String) : Stored := ⟨data, ttl.map (now + ·)⟩
    have last : Table.find k (values.reverse.map fun v => (v.1, stored v.2)) =
        (Table.find k values.reverse).map stored :=
      Table.find_map (f := id) Function.injective_id stored k values.reverse
    rw [putMany_of_reaches reaches, live?, Table.get?_putAll, ← List.map_reverse, last, if_pos rfl]
    cases Table.find k values.reverse <;> rfl
  | false =>
    rw [putMany_of_not_reaches reaches, if_neg Bool.false_ne_true]
    rfl

theorem live?_putMany_of_notMem (m : Memory) {values : List (String × String)} {k : String}
    (other : k ∉ values.map Prod.fst) (now later : Nat) (ttl : Option Nat) :
    (m.putMany now values ttl).live? later k = m.live? later k := by
  have absent : Table.find k values.reverse = none :=
    Table.find_of_notMem (by rwa [List.map_reverse, List.mem_reverse])
  rw [live?_putMany, absent, ite_self]

theorem live?_delete (m : Memory) (now : Nat) (key k : String) :
    (m.delete key).live? now k = if k = key then none else m.live? now k := by
  simp only [live?, delete, Table.get?_erase]
  by_cases here : k = key <;> simp [here]

theorem live?_purge (m : Memory) (now : Nat) (k : String) : m.purge.live? now k = none := rfl

theorem live?_purgeExpired (m : Memory) (k : String) {now later : Nat} (le : now ≤ later) :
    (m.purgeExpired now).2.live? later k = m.live? later k := by
  simp only [live?, purgeExpired, Table.get?_keep]
  cases m.items.get? k with
  | none => rfl
  | some v =>
    by_cases expired : v.isExpired now
    · simp [Option.filter, expired, Stored.live?, Stored.isExpired_of_le le expired]
    · simp [Option.filter, expired]

theorem horizon_after (now : Nat) (c : CacheCall) (m : Memory) :
    (c.after now m).horizon = m.horizon := by
  cases c with
  | get key => exact m.horizon_get now key
  | set key data ttl => exact m.horizon_putMany now [(key, data)] ttl
  | setMany values ttl => exact m.horizon_putMany now values ttl
  | delete key => rfl

theorem breakdowns_le_after (now : Nat) (c : CacheCall) (m : Memory) :
    m.breakdowns ≤ (c.after now m).breakdowns := by
  cases c with
  | get key => exact Nat.le_of_eq (m.breakdowns_get now key).symm
  | set key data ttl => exact m.breakdowns_le_putMany now [(key, data)] ttl
  | setMany values ttl => exact m.breakdowns_le_putMany now values ttl
  | delete key => exact Nat.le_refl _

end Memory

namespace Shelf.Leads

variable {h h' : Shelf Memory} (led : h.Leads h')
include led

theorem horizon_eq : h'.backend.horizon = h.backend.horizon :=
  led.invariant (P := fun m => m.horizon = h.backend.horizon)
    (fun c m same => (m.horizon_after h.now c).trans same) rfl

theorem breakdowns_le : h.backend.breakdowns ≤ h'.backend.breakdowns :=
  led.invariant (P := fun m => h.backend.breakdowns ≤ m.breakdowns)
    (fun c m le => Nat.le_trans le (m.breakdowns_le_after h.now c)) (Nat.le_refl _)

end Shelf.Leads
end LeagueSync
