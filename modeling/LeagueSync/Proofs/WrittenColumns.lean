import LeagueSync.Proofs.StoredTimes

/-!
# LeagueSync.Proofs.WrittenColumns

Tables as statements write them. A statement lists its columns, and its parameters stand in the
order of the list. If there is a row under the key, just those columns are overwritten that the
statement names a second time, and any other column keeps what an earlier statement put there. Rows
are read by position.

* `Statement.read_write`: what is read after a statement, if it overwrites all that is asked for.
* `Layout.Mirrors.write`: a table of rows and a table of cells go on saying the same.
* `Tables.mirrors_upsertEntries`, `Tables.mirrors_upsertGameweeks`: so do the entries and the
  gameweeks, whatever is written over and over.
-/

namespace LeagueSync

/-! ## Keys -/

namespace Table

variable {κ α : Type} [DecidableEq κ]

theorem map_fst_putRow (k : κ) (a : α) (rows : List (κ × α)) : (putRow k a rows).map Prod.fst =
    if k ∈ rows.map Prod.fst then rows.map Prod.fst else rows.map Prod.fst ++ [k] := by
  induction rows with
  | nil => rfl
  | cons row rows ih =>
    obtain ⟨k', b⟩ := row
    by_cases here : k' = k
    · simp [putRow, here]
    · simp only [putRow, if_neg here, List.map_cons, ih, List.mem_cons, Ne.symm here, false_or]
      split <;> rfl

theorem keys_put (t : Table κ α) (k : κ) (a : α) :
    (t.put k a).keys = if k ∈ t.keys then t.keys else t.keys ++ [k] :=
  map_fst_putRow k a t.rows

end Table

theorem map_lookup_zip {α β : Type} [DecidableEq α] {keys : List α} {values : List β}
    (distinct : keys.Nodup) (fits : values.length = keys.length) (missing : β) :
    keys.map (fun k => ((keys.zip values).lookup k).getD missing) = values := by
  induction keys generalizing values with
  | nil => exact (List.length_eq_zero_iff.1 fits).symm
  | cons key keys ih =>
    obtain _ | ⟨value, values⟩ := values
    · cases fits
    · obtain ⟨new, distinct⟩ := List.nodup_cons.1 distinct
      have later : ∀ k ∈ keys, (((key :: keys).zip (value :: values)).lookup k).getD missing =
          ((keys.zip values).lookup k).getD missing := by
        intro k member
        have differ : k ≠ key := fun same => new (same ▸ member)
        rw [List.zip_cons_cons, List.lookup_cons, beq_eq_false_iff_ne.2 differ]
      rw [List.map_cons, List.map_congr_left later, ih distinct (Nat.succ.inj fits),
        List.zip_cons_cons, List.lookup_cons_self, Option.getD_some]

/-! ## Statements -/

/-- What one column of a row holds. -/
inductive Cell where
  | null
  | integer (n : Int64)
  | text (s : String)
  deriving DecidableEq

/-- Rows, each with what its columns hold, under the cells of their keys. -/
abbrev CellTable := Table (List Cell) (String → Cell)

/-- What some columns of the row under a key hold. -/
def CellTable.read (c : CellTable) (asked : List String) (key : List Cell) : Option (List Cell) :=
  (c.get? key).map fun row => asked.map row

/-- A statement that writes one row. -/
structure Statement where
  /-- The columns in the order of the parameters. -/
  columns : List String
  key : List String
  /-- The columns that are overwritten if there is a row under the key. -/
  overwritten : List String

namespace Statement

variable (s : Statement)

/-- The row that holds the parameters. A column that is not listed holds nothing. -/
def bind (params : List Cell) (column : String) : Cell :=
  ((s.columns.zip params).lookup column).getD .null

def keyOf (params : List Cell) : List Cell :=
  s.key.map (s.bind params)

def write (c : CellTable) (params : List Cell) : CellTable :=
  c.put (s.keyOf params) <|
    match c.get? (s.keyOf params) with
    | some old => fun column =>
      if column ∈ s.overwritten then s.bind params column else old column
    | none => s.bind params

/-- Each row lies under what its key columns hold. -/
def Own (c : CellTable) : Prop :=
  ∀ key row, c.get? key = some row → s.key.map row = key

/-- The parameters come back in their order. -/
theorem map_bind {params : List Cell} (distinct : s.columns.Nodup)
    (fits : params.length = s.columns.length) : s.columns.map (s.bind params) = params :=
  map_lookup_zip distinct fits .null

variable {s} {c : CellTable} (own : s.Own c)
include own

/-- A column of the key or of those overwritten holds its parameter after the statement. -/
theorem written_column {params : List Cell} {row : String → Cell}
    (found : (s.write c params).get? (s.keyOf params) = some row) {column : String}
    (covered : column ∈ s.key ∨ column ∈ s.overwritten) : row column = s.bind params column := by
  rw [write, Table.get?_put, if_pos rfl] at found
  cases before : c.get? (s.keyOf params) with
  | none =>
    rw [before] at found
    cases found
    rfl
  | some old =>
    rw [before] at found
    cases found
    by_cases again : column ∈ s.overwritten
    · exact if_pos again
    · -- A column of the key keeps its old cell, but the old row lies under the same key.
      refine (if_neg again).trans ?_
      exact List.map_inj_left.1 (own _ old before) column (covered.resolve_right again)

theorem own_write (params : List Cell) : s.Own (s.write c params) := by
  intro key row found
  by_cases same : key = s.keyOf params
  · subst same
    exact List.map_inj_left.2 fun column inKey => written_column own found (.inl inKey)
  · rw [write, Table.get?_put, if_neg same] at found
    exact own key row found

theorem read_write {asked : List String}
    (covered : ∀ column ∈ asked, column ∈ s.key ∨ column ∈ s.overwritten) (params key : List Cell) :
    (s.write c params).read asked key =
      if key = s.keyOf params then some (asked.map (s.bind params)) else c.read asked key := by
  by_cases same : key = s.keyOf params
  · subst same
    cases found : (s.write c params).get? (s.keyOf params) with
    | none =>
      rw [write, Table.get?_put, if_pos rfl] at found
      cases found
    | some row =>
      rw [CellTable.read, found, if_pos rfl, Option.map_some]
      exact congrArg some (List.map_inj_left.2 fun column listed =>
        written_column own found (covered column listed))
  · rw [CellTable.read, write, Table.get?_put, if_neg same, if_neg same, CellTable.read]

end Statement

/-! ## Layouts -/

/-- How the rows of a table are written and read by columns. -/
structure Layout (κ β : Type) where
  statement : Statement
  /-- The columns in the order in which they are read. -/
  asked : List String
  key : κ → List Cell
  /-- What a row says, or nothing if a cell is not of the type of its column. -/
  ofCells? : List Cell → Option β
  injective : ∀ k k', key k = key k' → k = k'
  covered : ∀ column ∈ asked, column ∈ statement.key ∨ column ∈ statement.overwritten

namespace Layout

variable {κ ρ β : Type} [DecidableEq κ] {l : Layout κ β} {ofRow : κ → ρ → β} {c : CellTable}
  {t : Table κ ρ}

/-- A table of cells has the keys of a table of rows, and the row under each key says the same. -/
structure Mirrors (l : Layout κ β) (ofRow : κ → ρ → β) (c : CellTable) (t : Table κ ρ) : Prop where
  own : l.statement.Own c
  keys : c.keys = t.keys.map l.key
  read : ∀ k, (c.read l.asked (l.key k)).map l.ofCells? = (t.get? k).map fun r => some (ofRow k r)

theorem mirrors_empty : l.Mirrors ofRow .empty .empty :=
  ⟨fun _ _ found => (Option.some_ne_none _ found.symm).elim, rfl, fun _ => rfl⟩

theorem Mirrors.write (m : l.Mirrors ofRow c t) {params : List Cell} {k : κ} {row : ρ}
    (under : l.statement.keyOf params = l.key k)
    (meaning : l.ofCells? (l.asked.map (l.statement.bind params)) = some (ofRow k row)) :
    l.Mirrors ofRow (l.statement.write c params) (t.put k row) := by
  refine ⟨Statement.own_write m.own params, ?_, fun k' => ?_⟩
  · have member : l.key k ∈ c.keys ↔ k ∈ t.keys := by
      rw [m.keys, List.mem_map]
      exact ⟨fun ⟨k', there, same⟩ => l.injective k' k same ▸ there, fun there => ⟨k, there, rfl⟩⟩
    rw [Statement.write, under, Table.keys_put, Table.keys_put]
    by_cases there : k ∈ t.keys
    · rw [if_pos (member.2 there), if_pos there, m.keys]
    · rw [if_neg (mt member.1 there), if_neg there, m.keys, List.map_append, List.map_singleton]
  · rw [Statement.read_write m.own l.covered, under, Table.get?_put]
    by_cases same : k' = k
    · subst same
      rw [if_pos rfl, if_pos rfl, Option.map_some, meaning, Option.map_some]
    · rw [if_neg (mt (l.injective k' k) same), if_neg same, m.read]

end Layout

/-! ## Cells of the records -/

namespace Cell

def ofOption {α : Type} (f : α → Cell) : Option α → Cell
  | some a => f a
  | none => null

def ofWord (n : Int32) : Cell :=
  integer n.toInt64

def ofFlag (b : Bool) : Cell :=
  integer (flagWord b)

def integer? : Cell → Option Int64
  | integer n => some n
  | _ => none

def text? : Cell → Option String
  | text s => some s
  | _ => none

def word? (c : Cell) : Option Int32 :=
  c.integer?.bind fun n => if n = n.toInt32.toInt64 then some n.toInt32 else none

def flag? (c : Cell) : Option Bool :=
  c.integer?.map (· != 0)

def nullable? {α : Type} (read? : Cell → Option α) : Cell → Option (Option α)
  | null => some none
  | c => (read? c).map some

theorem word?_ofWord (n : Int32) : (ofWord n).word? = some n := by
  have back : n.toInt64.toInt32 = n := Int32.toInt32_toInt64 n
  simp only [word?, ofWord, integer?, Option.bind_some, back, if_true]

theorem flag?_ofFlag (b : Bool) : (ofFlag b).flag? = some b :=
  congrArg some (flagWord_bne_zero b)

theorem nullable?_ofOption {α : Type} (f : α → Cell) (read? : Cell → Option α)
    (notNull : ∀ a, f a ≠ null) (back : ∀ a, read? (f a) = some a) (a? : Option α) :
    (ofOption f a?).nullable? read? = some a? := by
  cases a? with
  | none => rfl
  | some a =>
    have value : (ofOption f (some a)).nullable? read? = (read? (f a)).map some := by
      rw [ofOption]
      cases cell : f a with
      | null => exact absurd cell (notNull a)
      | integer n => rfl
      | text s => rfl
    rw [value, back]
    rfl

end Cell

namespace Entry

/-- The parameters of the statement that writes an entry. -/
def cells (e : Entry) : List Cell :=
  [.integer e.id, .text e.name, .text e.playerName, .ofOption .text e.region,
    .ofOption .ofWord e.startedGameweek, .ofOption .integer e.overallPoints,
    .ofOption .integer e.overallRank, .ofOption .integer e.bank, .ofOption .integer e.teamValue,
    .ofOption .ofWord e.gameweek, .text e.updatedAt.offsetText]

/-- Reads an entry by position. -/
def ofCells? : List Cell → Option (Except StorageFault Entry)
  | [c0, c1, c2, c3, c4, c5, c6, c7, c8, c9, c10] => do
    let id ← c0.integer?
    let name ← c1.text?
    let playerName ← c2.text?
    let region ← c3.nullable? Cell.text?
    let startedGameweek ← c4.nullable? Cell.word?
    let overallPoints ← c5.nullable? Cell.integer?
    let overallRank ← c6.nullable? Cell.integer?
    let bank ← c7.nullable? Cell.integer?
    let teamValue ← c8.nullable? Cell.integer?
    let gameweek ← c9.nullable? Cell.word?
    let text ← c10.text?
    some ((readTime 10 text).map fun updatedAt => {
      id, name, playerName, region, startedGameweek, overallPoints, overallRank, bank, teamValue,
      gameweek, updatedAt })
  | _ => none

theorem ofCells?_cells (e : Entry) : ofCells? e.cells = some (EntryRow.ofEntry e).toEntry := by
  have integers := Cell.nullable?_ofOption .integer Cell.integer? (fun _ => nofun) fun _ => rfl
  have words := Cell.nullable?_ofOption .ofWord Cell.word? (fun _ => nofun) Cell.word?_ofWord
  have texts := Cell.nullable?_ofOption .text Cell.text? (fun _ => nofun) fun _ => rfl
  simp only [cells, ofCells?, integers, words, texts, Cell.integer?, Cell.text?,
    Option.bind_eq_bind, Option.bind_some, EntryRow.toEntry, EntryRow.ofEntry]
  cases readTime 10 e.updatedAt.offsetText <;> rfl

def layout : Layout EntryId (Except StorageFault Entry) where
  statement := {
    columns := ["entry_id", "entry_name", "player_name", "region", "started_event",
      "overall_points", "overall_rank", "bank", "team_value", "event_context", "updated_at"]
    key := ["entry_id"]
    overwritten := ["entry_name", "player_name", "region", "started_event", "overall_points",
      "overall_rank", "bank", "team_value", "event_context", "updated_at"] }
  asked := ["entry_id", "entry_name", "player_name", "region", "started_event", "overall_points",
    "overall_rank", "bank", "team_value", "event_context", "updated_at"]
  key id := [.integer id]
  ofCells? := ofCells?
  injective _ _ same := by
    cases same
    rfl
  covered := by decide

end Entry

namespace Gameweek

/-- The parameters of the statement that writes a gameweek of a season. -/
def cells (season : String) (g : Gameweek) : List Cell :=
  [.text season, .ofWord g.id, .text g.name, .ofOption (.text ·.offsetText) g.deadline,
    .ofFlag g.isCurrent, .ofFlag g.isNext, .ofFlag g.finished]

/-- Reads a gameweek by position. A deadline that cannot be read is none. -/
def ofCells? : List Cell → Option (Except StorageFault Gameweek)
  | [c0, c1, c2, c3, c4, c5] => do
    let id ← c0.integer?
    let name ← c1.text?
    let text? ← c2.nullable? Cell.text?
    let isCurrent ← c3.flag?
    let isNext ← c4.flag?
    let finished ← c5.flag?
    some <|
      if id = id.toInt32.toInt64 then
        .ok {
          id := id.toInt32, name, isCurrent, isNext, finished
          deadline := text?.bind fun text => Timestamp.readStored? text.toList }
      else .error (.range 0 id.toInt)
  | _ => none

theorem ofCells?_cells (season : String) (g : Gameweek) :
    ofCells? (g.cells season).tail = some ((GameweekRow.ofGameweek g).toGameweek g.id.toInt64) := by
  have text : (Cell.ofOption (.text ·.offsetText) g.deadline).nullable? Cell.text? =
      some (g.deadline.map Timestamp.offsetText) := by
    cases g.deadline <;> rfl
  simp only [cells, List.tail_cons, ofCells?, text, Cell.ofWord, Cell.integer?, Cell.text?,
    Cell.flag?_ofFlag, Option.bind_eq_bind, Option.bind_some, GameweekRow.toGameweek,
    GameweekRow.ofGameweek, flagWord_bne_zero]

def layout : Layout (String × Int64) (Except StorageFault Gameweek) where
  statement := {
    columns := ["season", "event_id", "name", "deadline_time", "is_current", "is_next", "finished"]
    key := ["season", "event_id"]
    overwritten := ["name", "deadline_time", "is_current", "is_next", "finished"] }
  asked := ["event_id", "name", "deadline_time", "is_current", "is_next", "finished"]
  key k := [.text k.1, .integer k.2]
  ofCells? := ofCells?
  injective k k' same := by
    simp only [List.cons.injEq, Cell.text.injEq, Cell.integer.injEq] at same
    exact Prod.ext same.1 same.2.1
  covered := by decide

end Gameweek

/-! ## The tables -/

namespace Tables

variable {t : Tables} {c : CellTable}

/-- A table of cells says what the entries of the store say. -/
abbrev EntryCells (t : Tables) (c : CellTable) : Prop :=
  Entry.layout.Mirrors (fun _ row => row.toEntry) c t.entries

/-- A table of cells says what the gameweeks of the store say. -/
abbrev GameweekCells (t : Tables) (c : CellTable) : Prop :=
  Gameweek.layout.Mirrors (fun k row => row.toGameweek k.2) c t.gameweeks

theorem mirrors_upsertEntry (m : t.EntryCells c) (e : Entry) :
    (t.upsertEntry e).EntryCells (Entry.layout.statement.write c e.cells) := by
  have params : Entry.layout.asked.map (Entry.layout.statement.bind e.cells) = e.cells :=
    Entry.layout.statement.map_bind (by decide) rfl
  exact m.write rfl (by rw [params]; exact e.ofCells?_cells)

theorem mirrors_upsertEntries (m : t.EntryCells c) (es : List Entry) :
    (t.upsertEntries es).EntryCells
      (es.foldl (fun c e => Entry.layout.statement.write c e.cells) c) := by
  induction es generalizing t c with
  | nil => exact m
  | cons e es ih => exact ih (mirrors_upsertEntry m e)

theorem mirrors_upsertGameweek (m : t.GameweekCells c) (season : String) (g : Gameweek) :
    (upsertGameweek season t g).GameweekCells
      (Gameweek.layout.statement.write c (g.cells season)) := by
  have params : Gameweek.layout.statement.columns.map
      (Gameweek.layout.statement.bind (g.cells season)) = g.cells season :=
    Gameweek.layout.statement.map_bind (by decide) rfl
  have asked : Gameweek.layout.asked.map (Gameweek.layout.statement.bind (g.cells season)) =
      (g.cells season).tail := by
    rw [← congrArg List.tail params, ← List.map_tail]
    rfl
  exact m.write rfl (by rw [asked]; exact g.ofCells?_cells season)

theorem mirrors_upsertGameweeks (m : t.GameweekCells c) (rows : List (String × Gameweek)) :
    (rows.foldl (fun t r => upsertGameweek r.1 t r.2) t).GameweekCells
      (rows.foldl (fun c r => Gameweek.layout.statement.write c (r.2.cells r.1)) c) := by
  induction rows generalizing t c with
  | nil => exact m
  | cons r rows ih => exact ih (mirrors_upsertGameweek m r.1 r.2)

end Tables
end LeagueSync
