/-!
# LeagueSync.Table

Finite maps in the order of first insertion. Putting a value under a key that is there replaces
the row in its place.

* `Table.get?_put`, `Table.get?_erase`, `Table.get?_empty`: what a look-up finds after a change.
* `Table.get?_putAll`: of rows with the same key the last one stays.
* `Table.mem_keys_iff`: the keys are those under which something is found.
-/

namespace LeagueSync

/-- Rows with distinct keys. -/
structure Table (κ α : Type) where
  rows : List (κ × α) := []
  nodup : (rows.map Prod.fst).Nodup := by simp

namespace Table

variable {κ α : Type}

/-- The table without rows. -/
def empty : Table κ α := {}

/-- The keys in the order of first insertion. -/
def keys (t : Table κ α) : List κ :=
  t.rows.map Prod.fst

/-- The values in the order of first insertion. -/
def values (t : Table κ α) : List α :=
  t.rows.map Prod.snd

/-- The number of rows. -/
def size (t : Table κ α) : Nat :=
  t.rows.length

theorem nodup_filter {p : κ × α → Bool} {rows : List (κ × α)} (h : (rows.map Prod.fst).Nodup) :
    ((rows.filter p).map Prod.fst).Nodup :=
  h.sublist (List.filter_sublist.map _)

/-- The rows whose value passes a test. -/
def keep (t : Table κ α) (p : α → Bool) : Table κ α :=
  ⟨t.rows.filter (p ·.2), nodup_filter t.nodup⟩

variable [DecidableEq κ]

/-- The value in the first row with the key. -/
def find (k : κ) : List (κ × α) → Option α
  | [] => none
  | (k', a) :: rest => if k' = k then some a else find k rest

/-- The value under a key. -/
def get? (t : Table κ α) (k : κ) : Option α :=
  find k t.rows

/-- Replaces the row of the key, or adds one at the end. -/
def putRow (k : κ) (a : α) : List (κ × α) → List (κ × α)
  | [] => [(k, a)]
  | (k', b) :: rest => if k' = k then (k, a) :: rest else (k', b) :: putRow k a rest

theorem mem_keys_putRow {k k' : κ} {a : α} {rows : List (κ × α)} :
    k' ∈ (putRow k a rows).map Prod.fst ↔ k' = k ∨ k' ∈ rows.map Prod.fst := by
  induction rows with
  | nil => simp [putRow]
  | cons row rest ih =>
    obtain ⟨k₀, b⟩ := row
    by_cases h : k₀ = k
    · subst h; simp [putRow]
    · simp only [putRow, h, if_false, List.map_cons, List.mem_cons, ih]
      grind

theorem nodup_putRow {k : κ} {a : α} {rows : List (κ × α)} (h : (rows.map Prod.fst).Nodup) :
    ((putRow k a rows).map Prod.fst).Nodup := by
  induction rows with
  | nil => simp [putRow]
  | cons row rest ih =>
    obtain ⟨k₀, b⟩ := row
    simp only [List.map_cons, List.nodup_cons] at h
    by_cases hk : k₀ = k
    · subst hk; simpa [putRow] using h
    · simp only [putRow, hk, if_false, List.map_cons, List.nodup_cons, mem_keys_putRow, false_or]
      exact ⟨h.1, ih h.2⟩

/-- Stores a value under a key. -/
def put (t : Table κ α) (k : κ) (a : α) : Table κ α :=
  ⟨putRow k a t.rows, nodup_putRow t.nodup⟩

/-- Removes the row of a key. -/
def erase (t : Table κ α) (k : κ) : Table κ α :=
  ⟨t.rows.filter (fun row => decide (row.1 ≠ k)), nodup_filter t.nodup⟩

/-- Stores several values one after another. -/
def putAll (t : Table κ α) (rows : List (κ × α)) : Table κ α :=
  rows.foldl (fun t row => t.put row.1 row.2) t

@[simp] theorem get?_empty (k : κ) : (empty : Table κ α).get? k = none := rfl

theorem find_putRow (k k' : κ) (a : α) (rows : List (κ × α)) :
    find k' (putRow k a rows) = if k' = k then some a else find k' rows := by
  induction rows with
  | nil => simp [putRow, find, eq_comm]
  | cons row rest ih =>
    obtain ⟨k₀, b⟩ := row
    by_cases h₀ : k₀ = k
    · subst h₀
      by_cases h : k' = k₀
      · simp [putRow, find, h]
      · simp [putRow, find, h, Ne.symm h]
    · simp only [putRow, h₀, if_false, find, ih]
      by_cases h : k' = k
      · subst h; simp [h₀]
      · simp [h]

theorem get?_put (t : Table κ α) (k k' : κ) (a : α) :
    (t.put k a).get? k' = if k' = k then some a else t.get? k' :=
  find_putRow k k' a t.rows

theorem find_filter_ne (k k' : κ) (rows : List (κ × α)) :
    find k' (rows.filter (fun row => decide (row.1 ≠ k))) =
      if k' = k then none else find k' rows := by
  induction rows with
  | nil => simp [find]
  | cons row rest ih =>
    obtain ⟨k₀, b⟩ := row
    by_cases h₀ : k₀ = k
    · subst h₀
      simp only [List.filter_cons, ne_eq, not_true, decide_false, Bool.false_eq_true, if_false, ih,
        find]
      by_cases h : k' = k₀
      · simp [h]
      · simp [h, Ne.symm h]
    · simp only [List.filter_cons, ne_eq, h₀, not_false_iff, decide_true, if_true, find, ih]
      by_cases h : k' = k
      · subst h; simp [h₀]
      · simp [h]

theorem get?_erase (t : Table κ α) (k k' : κ) :
    (t.erase k).get? k' = if k' = k then none else t.get? k' :=
  find_filter_ne k k' t.rows

theorem find_append (k : κ) (rows others : List (κ × α)) :
    find k (rows ++ others) = (find k rows).or (find k others) := by
  induction rows with
  | nil => rfl
  | cons row rows ih =>
    obtain ⟨k', a⟩ := row
    by_cases here : k' = k
    · simp [find, here]
    · simp [find, here, ih]

theorem get?_putAll (t : Table κ α) (rows : List (κ × α)) (k : κ) :
    (t.putAll rows).get? k = (find k rows.reverse).or (t.get? k) := by
  induction rows generalizing t with
  | nil => rfl
  | cons row rows ih =>
    show ((t.put row.1 row.2).putAll rows).get? k = _
    rw [ih, List.reverse_cons, find_append, Option.or_assoc, get?_put]
    by_cases here : k = row.1
    · simp [find, here]
    · simp [find, here, Ne.symm here]

theorem isSome_find {k : κ} {rows : List (κ × α)} :
    (find k rows).isSome ↔ k ∈ rows.map Prod.fst := by
  induction rows with
  | nil => simp [find]
  | cons row rows ih =>
    obtain ⟨k', a⟩ := row
    by_cases here : k' = k
    · simp [find, here]
    · simp [find, here, ih, Ne.symm here]

theorem isSome_find_reverse {k : κ} {rows : List (κ × α)} :
    (find k rows.reverse).isSome ↔ k ∈ rows.map Prod.fst := by
  rw [isSome_find, List.map_reverse, List.mem_reverse]

theorem mem_of_find {k : κ} {a : α} {rows : List (κ × α)} (found : find k rows = some a) :
    (k, a) ∈ rows := by
  induction rows with
  | nil => cases found
  | cons row rows ih =>
    obtain ⟨k', b⟩ := row
    by_cases here : k' = k
    · rw [find, if_pos here] at found
      cases found
      exact here ▸ List.mem_cons_self
    · rw [find, if_neg here] at found
      exact List.mem_cons_of_mem _ (ih found)

theorem mem_keys_iff (t : Table κ α) (k : κ) : k ∈ t.keys ↔ (t.get? k).isSome :=
  isSome_find.symm

end Table
end LeagueSync
