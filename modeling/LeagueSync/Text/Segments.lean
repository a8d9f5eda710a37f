/-!
# LeagueSync.Text.Segments

Texts that a separator cuts into pieces, and paths, whose pieces are segments between slashes. A
text with a separator at its end has an empty last piece, so nothing is lost.

* `joinPieces_pieces`: a text is what its pieces join to.
* `pieces_eq_iff`: its pieces are the only texts without the separator that join to it.
* `joinSegments_segments`, `segments_eq_iff`: the same of a path and its segments.
-/

namespace LeagueSync

/-- The pieces of a text, which the separator keeps apart. There is always one. -/
def pieces (separator : Char) : List Char → List (List Char)
  | [] => [[]]
  | c :: rest =>
    if c = separator then [] :: pieces separator rest
    else match pieces separator rest with
      | [] => [[c]]
      | s :: more => (c :: s) :: more

def joinPieces (separator : Char) : List (List Char) → List Char
  | [] => []
  | [s] => s
  | s :: rest => s ++ separator :: joinPieces separator rest

def segments (path : List Char) : List (List Char) :=
  pieces '/' path

def joinSegments (ss : List (List Char)) : List Char :=
  joinPieces '/' ss

theorem pieces_eq_splitOn (separator : Char) (cs : List Char) :
    pieces separator cs = cs.splitOn separator := by
  induction cs with
  | nil => rfl
  | cons c rest ih =>
    rw [pieces, List.splitOn_cons_eq_if_modifyHead, ih]
    cases cut : rest.splitOn separator with
    | nil => exact absurd cut (List.splitOn_ne_nil separator rest)
    | cons s more => simp

theorem joinPieces_eq_intercalate (separator : Char) (ss : List (List Char)) :
    joinPieces separator ss = List.intercalate [separator] ss := by
  induction ss with
  | nil => rfl
  | cons s rest ih =>
    cases rest with
    | nil => simp [joinPieces]
    | cons t more => simp [joinPieces, ih, List.intercalate_cons_cons]

theorem joinPieces_pieces (separator : Char) (cs : List Char) :
    joinPieces separator (pieces separator cs) = cs := by
  rw [joinPieces_eq_intercalate, pieces_eq_splitOn, List.intercalate_splitOn]

theorem notMem_of_mem_pieces {separator : Char} {cs s : List Char}
    (h : s ∈ pieces separator cs) : separator ∉ s := by
  fun_induction pieces separator cs generalizing s with
  | case1 =>
    cases List.mem_singleton.1 h
    exact List.not_mem_nil
  | case2 rest ih =>
    rcases List.mem_cons.1 h with rfl | later
    · exact List.not_mem_nil
    · exact ih later
  | case3 c rest other cut ih =>
    cases List.mem_singleton.1 h
    simpa using Ne.symm other
  | case4 c rest other first more cut ih =>
    rw [cut] at ih
    rcases List.mem_cons.1 h with rfl | later
    · simpa [Ne.symm other] using ih List.mem_cons_self
    · exact ih (List.mem_cons_of_mem _ later)

/-- No other texts without the separator join to the text. -/
theorem pieces_eq_iff {separator : Char} {cs : List Char} {ss : List (List Char)} :
    pieces separator cs = ss ↔
      ss ≠ [] ∧ (∀ s ∈ ss, separator ∉ s) ∧ joinPieces separator ss = cs := by
  constructor
  · rintro rfl
    refine ⟨?_, fun s => notMem_of_mem_pieces, joinPieces_pieces separator cs⟩
    rw [pieces_eq_splitOn]
    exact List.splitOn_ne_nil separator cs
  · rintro ⟨some_piece, apart, rfl⟩
    rw [joinPieces_eq_intercalate, pieces_eq_splitOn,
      List.splitOn_intercalate separator apart some_piece]

theorem joinSegments_segments (path : List Char) : joinSegments (segments path) = path :=
  joinPieces_pieces '/' path

theorem segments_eq_iff {path : List Char} {ss : List (List Char)} :
    segments path = ss ↔ ss ≠ [] ∧ (∀ s ∈ ss, '/' ∉ s) ∧ joinSegments ss = path :=
  pieces_eq_iff

theorem segments_inj {p q : List Char} : segments p = segments q ↔ p = q := by
  constructor
  · intro same
    rw [← joinSegments_segments p, same, joinSegments_segments]
  · rintro rfl
    rfl

end LeagueSync
